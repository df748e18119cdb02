import M2Handler.Adt.Insertion
import M2Handler.Adt.Removal
import M2Handler.Handler.Request

/-!
# The session store

A store is a dictionary of sessions behind a mutex.  A session is known by the
connection id of its request, so the store is a bag of connection ids: adding an
id that it has already makes a second node, and a removal of an id that it does
not have follows a null pointer.
-/

namespace M2Handler.Websocket.Session

open Machine RedBlack RedBlack.Tree Adt Handler

variable {β : Type}

structure M2WsSessionId where
  req : Mongrel2Request

structure M2WsSessionsState where
  dict : Dict M2WsSessionId
  /-- Whether `dict_mutex` is held. -/
  locked : Bool

abbrev SessionsM := StateT M2WsSessionsState Exec

def compareSessionId (ses1 ses2 : M2WsSessionId) : Int :=
  if ses1.req.connId > ses2.req.connId then 1
  else if ses1.req.connId < ses2.req.connId then -1
  else 0

/-- Locking a mutex that is held waits for ever. -/
def mongrel2WsSessionsStateLock : SessionsM Unit := fun state =>
  if state.locked then .error .deadlock else .ok ((), { state with locked := true })

def mongrel2WsSessionsStateUnlock : SessionsM Unit := fun state =>
  .ok ((), { state with locked := false })

def onDict (action : DictM M2WsSessionId β) : SessionsM β := fun state => do
  let (result, dict) ← action state.dict
  return (result, { state with dict := dict })

def mongrel2WsSessionsStateInit : Exec (Int × M2WsSessionsState) := do
  let ((), state) ← mongrel2WsSessionsStateLock { dict := dictInit, locked := false }
  return (0, state)

def mongrel2WsSessionsStateAdd (req : Mongrel2Request) : SessionsM Int := do
  mongrel2WsSessionsStateLock
  let key : M2WsSessionId := { req }
  let _ ← onDict (dictAllocInsert compareSessionId key)
  mongrel2WsSessionsStateUnlock
  return 0

def mongrel2WsSessionsStateRemove (req : Mongrel2Request) : SessionsM Int := do
  mongrel2WsSessionsStateLock
  let incoming : M2WsSessionId := { req }
  let tempnode ← onDict (dictLookup compareSessionId incoming)
  onDict (dictDeleteFree tempnode)
  mongrel2WsSessionsStateUnlock
  return 0

def mongrel2WsSessionsStateContains (req : Mongrel2Request) : SessionsM Int := do
  mongrel2WsSessionsStateLock
  let incoming : M2WsSessionId := { req }
  let tempnode ← onDict (dictLookup compareSessionId incoming)
  mongrel2WsSessionsStateUnlock
  if tempnode = .null then return 0 else return 1

/-! ## The order of sessions -/

/-- The number that orders the entries of a store. -/
def rank (entry : Nat × M2WsSessionId) : Int := entry.2.req.connId.toInt

/-- The comparison of sessions is that of their numbers. -/
theorem heading_compareSessionId (ses : M2WsSessionId) (entry : Nat × M2WsSessionId) :
    heading (compareSessionId ses entry.2) = towards rank ses.req.connId.toInt entry := by
  simp only [compareSessionId, gt_iff_lt, Int32.lt_iff_toInt_lt, towards, rank]
  rcases lt_trichotomy ses.req.connId.toInt entry.2.req.connId.toInt with below | equal | above
  · rw [if_neg (not_lt_of_gt below), if_pos below, (cmp_eq_lt_iff _ _).mpr below]
    rfl
  · rw [equal, if_neg (lt_irrefl _), if_neg (lt_irrefl _), cmp_self_eq_eq]
    rfl
  · rw [if_pos above, (cmp_eq_gt_iff _ _).mpr above]
    rfl

theorem isBelow_compareSessionId (ses : M2WsSessionId) (entry : Nat × M2WsSessionId) :
    isBelow compareSessionId ses entry = decide (ses.req.connId.toInt < rank entry) := by
  simp only [isBelow, compareSessionId, gt_iff_lt, Int32.lt_iff_toInt_lt, rank]
  rcases lt_trichotomy ses.req.connId.toInt entry.2.req.connId.toInt with below | equal | above
  · simp [below, not_lt_of_gt below]
  · simp [equal]
  · simp [above, not_lt_of_gt above]

/-! ## The bag of connection ids -/

/-- A dictionary holds a sorted red-black tree of sessions. -/
structure Stores (dict : Dict M2WsSessionId) (tree : RedBlack.Tree (Nat × M2WsSessionId)) :
    Prop where
  holds : Holds dict tree
  redBlack : IsRedBlack tree
  sorted : Sorted rank tree
  null : dict.memory .null = none
  counted : dictCount dict = UInt64.ofNat tree.inorder.length

def connIds (tree : RedBlack.Tree (Nat × M2WsSessionId)) : Multiset Int32 :=
  Multiset.ofList (tree.inorder.map fun entry => entry.2.req.connId)

/-- A store that nobody holds has one node for each of these connection ids. -/
def Represents (state : M2WsSessionsState) (ids : Multiset Int32) : Prop :=
  state.locked = false ∧ ∃ tree, Stores state.dict tree ∧ connIds tree = ids

/-- A store represents one bag only. -/
theorem Represents.unique {state : M2WsSessionsState} {ids ids' : Multiset Int32}
    (represents : Represents state ids) (represents' : Represents state ids') : ids = ids' := by
  obtain ⟨-, tree, stores, rfl⟩ := represents
  obtain ⟨-, tree', stores', rfl⟩ := represents'
  rw [stores.holds.unique stores'.holds]

variable {dict : Dict M2WsSessionId} {tree : RedBlack.Tree (Nat × M2WsSessionId)}

theorem stores_dictInit : Stores dictInit .nil where
  holds :=
    { stored := trivial
      rooted := ⟨_, rfl, rfl, rfl, rfl⟩
      distinct := List.nodup_nil
      allocated := fun _ member => absurd member List.not_mem_nil }
  redBlack := ⟨rfl, _, .nil⟩
  sorted := List.Pairwise.nil
  null := rfl
  counted := rfl

/-- A lookup finds a session exactly when the id is in the bag. -/
theorem find_towards (stores : Stores dict tree) (id : Int32) :
    (find (towards rank id.toInt) tree = none ∧ id ∉ connIds tree) ∨
      ∃ entry ∈ tree.inorder, find (towards rank id.toInt) tree = some entry ∧
        entry.2.req.connId = id := by
  cases found : find (towards rank id.toInt) tree with
  | none =>
      refine .inl ⟨rfl, fun member => ?_⟩
      obtain ⟨entry, inTree, same⟩ := List.mem_map.mp (Multiset.mem_coe.mp member)
      have some := (find_isSome_iff stores.sorted id.toInt).mpr
        ⟨entry, inTree, congrArg Int32.toInt same⟩
      rw [found] at some
      cases some
  | some entry =>
      obtain ⟨inTree, equal⟩ := find_eq_some found
      exact .inr ⟨entry, inTree, rfl, Int32.toInt_inj.mp ((cmp_eq_eq_iff _ _).mp equal).symm⟩

/-- An action that leaves the tree as it is. -/
theorem Stores.rewrites (stores : Stores dict tree) {action : DictM M2WsSessionId β} {result : β}
    (rewrites : Rewrites action tree result tree) :
    ∃ dict', action dict = .ok (result, dict') ∧ Stores dict' tree := by
  obtain ⟨dict', run, holds, untouched⟩ := rewrites.2 dict stores.holds
  exact ⟨dict', run, holds, stores.redBlack, stores.sorted,
    (untouched.null).trans stores.null,
    untouched.nodecount.trans stores.counted⟩

theorem lookup_run (stores : Stores dict tree) (req : Mongrel2Request) :
    ∃ dict', dictLookup compareSessionId { req } dict =
        .ok (pointerTo (find (towards rank req.connId.toInt) tree), dict') ∧
      Stores dict' tree := by
  obtain ⟨dict', run, kept⟩ := stores.rewrites (rewrites_dictLookup compareSessionId { req } tree)
  simp only [heading_compareSessionId] at run
  exact ⟨dict', run, kept⟩

theorem insert_run (stores : Stores dict tree) (req : Mongrel2Request) :
    ∃ dict' tree', dictAllocInsert compareSessionId { req } dict = .ok (1, dict') ∧
      Stores dict' tree' ∧ tree'.inorder.Perm ((dict.next, { req }) :: tree.inorder) := by
  obtain ⟨dict', run, holds, count, null⟩ :=
    dictAllocInsert_run compareSessionId { req } stores.holds stores.redBlack
  have order : isBelow compareSessionId { req } =
      fun other => decide (rank (dict.next, { req }) < rank other) :=
    funext (isBelow_compareSessionId { req })
  have added := inorder_insert_perm (isBelow compareSessionId { req }) (dict.next, { req }) tree
  refine ⟨dict', _, run, ⟨holds, isRedBlack_insert stores.redBlack _ _, ?_, ?_, ?_⟩, added⟩
  · rw [order]
    exact sorted_insert stores.sorted _
  · exact null.trans stores.null
  · have counted : dict.nodecount = UInt64.ofNat tree.inorder.length := stores.counted
    rw [dictCount, count, counted, added.length_eq, List.length_cons, UInt64.ofNat_add]
    rfl

theorem delete_run (stores : Stores dict tree) {entry : Nat × M2WsSessionId}
    (inTree : entry ∈ tree.inorder) :
    ∃ dict' tree', dictDeleteFree (.node entry.1) dict = .ok ((), dict') ∧
      Stores dict' tree' ∧ tree.inorder.Perm (entry :: tree'.inorder) := by
  obtain ⟨front, back, place⟩ := List.append_of_mem inTree
  obtain ⟨path, color, left, right, rfl, -, -⟩ := exists_path place
  obtain ⟨dict', run, holds, null, count⟩ := dictDeleteFree_run stores.holds stores.redBlack
  have kept := inorder_remove path color left right
  have removed : (plug path (.node color left entry right)).inorder.Perm
      (entry :: (remove path color left right).inorder) := by
    rw [kept, inorder_plug, inorder_node]
    simp only [List.append_assoc, List.cons_append]
    rw [← List.append_assoc, ← List.append_assoc (before path)]
    exact List.perm_middle
  refine ⟨dict', _, run, ⟨holds, isRedBlack_remove stores.redBlack, ?_, ?_, ?_⟩, removed⟩
  · have sorted := stores.sorted
    rw [Sorted, inorder_plug, inorder_node] at sorted
    rw [Sorted, kept]
    exact sorted.sublist (((List.sublist_cons_self _ _).append_left _).append_left _ |>.append_right _)
  · exact null.trans stores.null
  · have counted : dict.nodecount = _ := stores.counted
    rw [dictCount, count, counted, removed.length_eq, List.length_cons, UInt64.ofNat_add]
    exact UInt64.add_sub_cancel _ _

/-! ## Calls -/

theorem connIds_perm {entry : Nat × M2WsSessionId}
    {smaller larger : RedBlack.Tree (Nat × M2WsSessionId)}
    (added : larger.inorder.Perm (entry :: smaller.inorder)) :
    connIds larger = entry.2.req.connId ::ₘ connIds smaller :=
  Multiset.coe_eq_coe.mpr (added.map _)

/-- A dictionary function inside a critical section. -/
theorem onDict_bind {γ : Type} {action : DictM M2WsSessionId β} {result : β}
    {dict' : Dict M2WsSessionId} (run : action dict = .ok (result, dict')) (locked : Bool)
    (next : β → SessionsM γ) :
    (onDict action >>= next) { dict, locked } = next result { dict := dict', locked } := by
  change (onDict action { dict, locked } >>= fun outcome => next outcome.1 outcome.2) = _
  rw [onDict, run]
  rfl

theorem onDict_fault {γ : Type} {action : DictM M2WsSessionId β} {fault : Fault}
    (run : action dict = .error fault) (locked : Bool) (next : β → SessionsM γ) :
    (onDict action >>= next) { dict, locked } = .error fault := by
  change (onDict action { dict, locked } >>= fun outcome => next outcome.1 outcome.2) = _
  rw [onDict, run]
  rfl

theorem lock_bind {γ : Type} (next : Unit → SessionsM γ) :
    (mongrel2WsSessionsStateLock >>= next) { dict, locked := false } =
      next () { dict, locked := true } :=
  (rfl)

theorem represents_init : Represents { dict := dictInit, locked := false } 0 :=
  ⟨rfl, .nil, stores_dictInit, rfl⟩

theorem init_run :
    ∃ state, mongrel2WsSessionsStateInit = .ok (0, state) ∧
      ∃ state', mongrel2WsSessionsStateUnlock state = .ok ((), state') ∧ Represents state' 0 :=
  ⟨_, rfl, _, rfl, represents_init⟩

theorem add_stores (stores : Stores dict tree) (req : Mongrel2Request) :
    ∃ dict' tree', mongrel2WsSessionsStateAdd req { dict, locked := false } =
        .ok (0, { dict := dict', locked := false }) ∧
      Stores dict' tree' ∧ tree'.inorder.Perm ((dict.next, { req }) :: tree.inorder) := by
  obtain ⟨dict', tree', run, stores', added⟩ := insert_run stores req
  refine ⟨dict', tree', ?_, stores', added⟩
  rw [mongrel2WsSessionsStateAdd, lock_bind, onDict_bind run]
  rfl

theorem remove_stores (stores : Stores dict tree) {req : Mongrel2Request}
    (live : req.connId ∈ connIds tree) :
    ∃ entry dict' tree', mongrel2WsSessionsStateRemove req { dict, locked := false } =
        .ok (0, { dict := dict', locked := false }) ∧ Stores dict' tree' ∧
      entry.2.req.connId = req.connId ∧ tree.inorder.Perm (entry :: tree'.inorder) := by
  obtain ⟨between, looked, kept⟩ := lookup_run stores req
  obtain ⟨-, absent⟩ | ⟨entry, inTree, found, same⟩ := find_towards stores req.connId
  · exact absurd live absent
  · obtain ⟨dict', tree', deleted, stores', removed⟩ := delete_run kept inTree
    refine ⟨entry, dict', tree', ?_, stores', same, removed⟩
    rw [mongrel2WsSessionsStateRemove, lock_bind, onDict_bind looked, found]
    rw [show pointerTo (some entry) = .node entry.1 from rfl, onDict_bind deleted]
    rfl

theorem contains_stores (stores : Stores dict tree) (req : Mongrel2Request) :
    ∃ dict', mongrel2WsSessionsStateContains req { dict, locked := false } =
        .ok (if req.connId ∈ connIds tree then 1 else 0, { dict := dict', locked := false }) ∧
      Stores dict' tree := by
  obtain ⟨dict', looked, kept⟩ := lookup_run stores req
  refine ⟨dict', ?_, kept⟩
  rw [mongrel2WsSessionsStateContains, lock_bind, onDict_bind looked]
  obtain ⟨nothing, absent⟩ | ⟨entry, inTree, found, same⟩ := find_towards stores req.connId
  · rw [nothing, if_neg absent]
    rfl
  · have live : req.connId ∈ connIds tree :=
      Multiset.mem_coe.mpr (List.mem_map.mpr ⟨entry, inTree, same⟩)
    rw [found, if_pos live]
    rfl

variable {state : M2WsSessionsState} {ids : Multiset Int32}

theorem add_run (represents : Represents state ids) (req : Mongrel2Request) :
    ∃ state', mongrel2WsSessionsStateAdd req state = .ok (0, state') ∧
      Represents state' (req.connId ::ₘ ids) := by
  obtain ⟨dict, locked⟩ := state
  obtain ⟨rfl, tree, stores, rfl⟩ := represents
  obtain ⟨dict', tree', run, stores', added⟩ := add_stores stores req
  exact ⟨_, run, rfl, tree', stores', connIds_perm added⟩

theorem remove_run (represents : Represents state ids) {req : Mongrel2Request}
    (live : req.connId ∈ ids) :
    ∃ state', mongrel2WsSessionsStateRemove req state = .ok (0, state') ∧
      Represents state' (ids.erase req.connId) := by
  obtain ⟨dict, locked⟩ := state
  obtain ⟨rfl, tree, stores, rfl⟩ := represents
  obtain ⟨entry, dict', tree', run, stores', same, removed⟩ := remove_stores stores live
  refine ⟨_, run, rfl, tree', stores', ?_⟩
  rw [connIds_perm removed, same, Multiset.erase_cons_head]

/-- A removal of an id that is not in the bag follows the null pointer. -/
theorem remove_faults (represents : Represents state ids) {req : Mongrel2Request}
    (absent : req.connId ∉ ids) :
    mongrel2WsSessionsStateRemove req state = .error .nullPointer := by
  obtain ⟨dict, locked⟩ := state
  obtain ⟨rfl, tree, stores, rfl⟩ := represents
  obtain ⟨between, looked, kept⟩ := lookup_run stores req
  obtain ⟨nothing, -⟩ | ⟨entry, inTree, found, same⟩ := find_towards stores req.connId
  · rw [mongrel2WsSessionsStateRemove, lock_bind, onDict_bind looked, nothing]
    exact onDict_fault (dictDeleteFree_null kept.null) true _
  · exact absurd (Multiset.mem_coe.mpr (List.mem_map.mpr ⟨entry, inTree, same⟩)) absent

theorem contains_run (represents : Represents state ids) (req : Mongrel2Request) :
    ∃ state', mongrel2WsSessionsStateContains req state =
        .ok (if req.connId ∈ ids then 1 else 0, state') ∧ Represents state' ids := by
  obtain ⟨dict, locked⟩ := state
  obtain ⟨rfl, tree, stores, rfl⟩ := represents
  obtain ⟨dict', run, kept⟩ := contains_stores stores req
  exact ⟨_, run, rfl, tree, kept, rfl⟩

end M2Handler.Websocket.Session

import M2Handler.Adt.Verification

/-!
# Loading nodes in order

`dict_load_begin`, `dict_load_next` and `dict_load_end` make a dictionary of nodes
that come in order, without comparing them.  The nodes are first chained by their
left links behind the sentinel of the load, which is a node of its own, and then
linked to a tree row by row.  Here the assertions count too: `ndebug` tells whether
the build leaves them out.
-/

namespace M2Handler.Adt

open M2Handler.Machine M2Handler.RedBlack M2Handler.RedBlack.Tree

variable {κ : Type}

/-! ## The functions -/

def DICT_DEPTH_MAX : Nat := 64

def DICTCOUNT_T_MAX : UInt64 := 18446744073709551615

def assertThat (condition : Bool) : DictM κ Unit :=
  if condition then pure () else fun _ => .error .assertion

def unlessNdebug (ndebug : Bool) (check : DictM κ Unit) : DictM κ Unit :=
  if ndebug then pure () else check

def dictLoadBegin (ndebug : Bool) (loadnil : Pointer) : DictM κ Unit := do
  let dict ← get
  unlessNdebug ndebug (assertThat (dict.nodecount = 0))
  store loadnil (Dnode.setChild .left loadnil)
  store loadnil (Dnode.setChild .right loadnil)

def dnodeIsInADict (dnode : Pointer) : DictM κ Bool := do
  let parent ← load dnode Dnode.parent
  if parent = .null then pure false
  else
    let left ← load dnode Dnode.left
    if left = .null then pure false
    else
      let right ← load dnode Dnode.right
      pure (right ≠ .null)

def checkOrder (compare : κ → κ → Int) (loadnil : Pointer) (key : κ) : DictM κ Unit := do
  let dict ← get
  if dict.nodecount > 0 then
    let left ← load loadnil Dnode.left
    let leftKey ← loadKey left
    assertThat (compare leftKey key < 0)

/-- The assertions of `dict_load_next`, in a dictionary for as many nodes as can be
counted. -/
def checkLoadNext (compare : κ → κ → Int) (loadnil newnode : Pointer) (key : κ) :
    DictM κ Unit := do
  let isIn ← dnodeIsInADict newnode
  assertThat (!isIn)
  let dict ← get
  assertThat (dict.nodecount < DICTCOUNT_T_MAX)
  checkOrder compare loadnil key

/-- `dict_load_next`. -/
def dictLoadNext (ndebug : Bool) (compare : κ → κ → Int) (loadnil newnode : Pointer) (key : κ) :
    DictM κ Unit := do
  unlessNdebug ndebug (checkLoadNext compare loadnil newnode key)
  store newnode (Dnode.setKey key)
  let last ← load loadnil Dnode.right
  store last (Dnode.setChild .left newnode)
  store loadnil (Dnode.setChild .right newnode)
  store newnode (Dnode.setChild .left loadnil)
  modify fun dict => { dict with nodecount := dict.nodecount + 1 }

/-- `while (fullcount >= nodecount && fullcount) fullcount >>= 1;` -/
def fullcountLoop (nodecount : UInt64) : Nat → UInt64 → DictM κ UInt64
  | 0, _ => diverge
  | fuel + 1, fullcount =>
      if fullcount ≥ nodecount ∧ fullcount ≠ 0 then fullcountLoop nodecount fuel (fullcount >>> 1)
      else pure fullcount

/-- `(dnode_color_t) number`. -/
def dnodeColor (number : Nat) : Color := if number = 0 then .red else .black

structure LoadEnd where
  tree : List Pointer
  complete : Pointer
  botrowcount : UInt64
  baselevel : Nat
  level : Nat

def readTree (tree : List Pointer) (level : Nat) : DictM κ Pointer := fun dict =>
  match tree[level]? with
  | some pointer => .ok (pointer, dict)
  | none => .error .outOfBounds

def writeTree (tree : List Pointer) (level : Nat) (pointer : Pointer) :
    DictM κ (List Pointer) := fun dict =>
  if level < tree.length then .ok (tree.set level pointer, dict) else .error .outOfBounds

/-- The loops `while (tree[level] != 0)`. -/
def completeLoop : Nat → List Pointer → Pointer → Nat → DictM κ (List Pointer × Pointer × Nat)
  | 0, _, _, _ => diverge
  | fuel + 1, tree, complete, level => do
      let waiting ← readTree tree level
      if waiting ≠ .null then
        store waiting (Dnode.setChild .right complete)
        store complete (Dnode.setParent waiting)
        let tree ← writeTree tree level .null
        completeLoop fuel tree waiting (level + 1)
      else pure (tree, complete, level)

section Build

variable (ndebug : Bool)

/-- The step to the row above the bottom row. -/
def leaveBottomRow (locals : LoadEnd) : DictM κ LoadEnd := do
  unlessNdebug ndebug (assertThat (locals.baselevel = 0))
  unlessNdebug ndebug (assertThat (locals.level = 0))
  let complete ← readTree locals.tree 0
  if complete ≠ .null then
    let tree ← writeTree locals.tree 0 .null
    store complete (Dnode.setChild .right .nil)
    let (tree, complete, level) ← completeLoop (DICT_DEPTH_MAX + 1) tree complete 1
    pure { locals with tree, complete, level, baselevel := 1 }
  else pure { locals with complete, level := 1, baselevel := 1 }

/-- `if (complete == NULL && botrowcount-- == 0)`. -/
def takePlace (locals : LoadEnd) : DictM κ LoadEnd :=
  if locals.complete = .null then
    if locals.botrowcount = 0 then
      leaveBottomRow ndebug { locals with botrowcount := locals.botrowcount - 1 }
    else pure { locals with botrowcount := locals.botrowcount - 1 }
  else pure locals

/-- The node becomes a leaf, or the parent of the complete tree. -/
def placeNode (curr : Pointer) (locals : LoadEnd) : DictM κ LoadEnd :=
  if locals.complete = .null then do
    store curr (Dnode.setChild .left .nil)
    store curr (Dnode.setChild .right .nil)
    store curr (Dnode.setColor (dnodeColor (locals.level % 2)))
    unlessNdebug ndebug (assertThat (locals.level = locals.baselevel))
    let (tree, complete, level) ← completeLoop (DICT_DEPTH_MAX + 1) locals.tree curr locals.level
    pure { locals with tree, complete, level }
  else do
    store curr (Dnode.setChild .left locals.complete)
    store curr (Dnode.setColor (dnodeColor ((locals.level + 1) % 2)))
    store locals.complete (Dnode.setParent curr)
    let tree ← writeTree locals.tree locals.level curr
    pure { locals with tree, complete := .null, level := locals.baselevel }

/-- The loop over the loaded nodes. -/
def loadEndLoop (loadnil : Pointer) : Nat → Pointer → LoadEnd → DictM κ LoadEnd
  | 0, _, _ => diverge
  | fuel + 1, curr, locals =>
      if curr = loadnil then pure locals
      else do
        let next ← load curr Dnode.left
        let locals ← takePlace ndebug locals
        let locals ← placeNode ndebug curr locals
        loadEndLoop loadnil fuel next locals

/-- The loop over `tree` at the end. -/
def joinLoop : List Pointer → Pointer → DictM κ Pointer
  | [], complete => pure complete
  | waiting :: tree, complete =>
      if waiting ≠ .null then do
        store waiting (Dnode.setChild .right complete)
        store complete (Dnode.setParent waiting)
        joinLoop tree waiting
      else joinLoop tree complete

/-- The end of `dict_load_end`: the complete tree becomes that of the dictionary. -/
def setRoot (complete : Pointer) : DictM κ Unit := do
  store .nil (Dnode.setColor .black)
  store .nil (Dnode.setChild .right .nil)
  store complete (Dnode.setParent .nil)
  store complete (Dnode.setColor .black)
  store .nil (Dnode.setChild .left complete)

/-- `dict_load_end` before its last assertion. -/
def linkNodes (loadnil : Pointer) : DictM κ Unit := do
  let dict ← get
  let fullcount ← fullcountLoop dict.nodecount (DICT_DEPTH_MAX + 1) DICTCOUNT_T_MAX
  let first ← load loadnil Dnode.left
  let fuel ← steps
  let locals ← loadEndLoop ndebug loadnil fuel first
    { tree := List.replicate DICT_DEPTH_MAX .null
      complete := .null
      botrowcount := dict.nodecount - fullcount
      baselevel := 0
      level := 0 }
  let complete := if locals.complete = .null then .nil else locals.complete
  let complete ← joinLoop locals.tree complete
  setRoot complete

variable (compare : κ → κ → Int)

def dictLoadEnd (loadnil : Pointer) : DictM κ Unit := do
  linkNodes ndebug loadnil
  unlessNdebug ndebug do
    let verified ← dictVerify compare
    assertThat (verified ≠ 0)

def loadAll (loadnil : Pointer) : List (Nat × κ) → DictM κ Unit
  | [] => pure ()
  | entry :: entries => do
      dictLoadNext ndebug compare loadnil (.node entry.1) entry.2
      loadAll loadnil entries

def loadEntries (loadnil : Pointer) (entries : List (Nat × κ)) : DictM κ Unit := do
  dictLoadBegin ndebug loadnil
  loadAll ndebug compare loadnil entries
  dictLoadEnd ndebug compare loadnil

end Build

/-! ## Assertions -/

theorem get_bind {β : Type} (dict : Dict κ) (next : Dict κ → DictM κ β) :
    (get >>= next) dict = next dict dict :=
  (rfl)

/-- A condition that holds stops no build. -/
theorem assert_bind {β : Type} (ndebug : Bool) {condition : Bool} (holds : condition = true)
    (dict : Dict κ) (next : Unit → DictM κ β) :
    (unlessNdebug ndebug (assertThat condition) >>= next) dict = next () dict := by
  subst holds
  cases ndebug <;> rfl

theorem checked_bind {β : Type} {ndebug : Bool} {check : DictM κ Unit} {dict : Dict κ}
    (passes : ndebug = true ∨ check dict = .ok ((), dict)) (next : Unit → DictM κ β) :
    (unlessNdebug ndebug check >>= next) dict = next () dict := by
  cases ndebug with
  | true => rfl
  | false => exact action_bind (passes.resolve_left Bool.false_ne_true) next

/-! ## Writes -/

structure WritesOnly (written : List Nat) (dict dict' : Dict κ) : Prop where
  next : dict'.next = dict.next
  nodecount : dict'.nodecount = dict.nodecount
  sentinel : (dict'.memory .nil).isSome = (dict.memory .nil).isSome
  others : ∀ a, a ∉ written → dict'.memory (.node a) = dict.memory (.node a)

theorem WritesOnly.trans {first second : List Nat} {dict between dict' : Dict κ}
    (before : WritesOnly first dict between) (later : WritesOnly second between dict')
    (within : first ⊆ second) : WritesOnly second dict dict' where
  next := later.next.trans before.next
  nodecount := later.nodecount.trans before.nodecount
  sentinel := later.sentinel.trans before.sentinel
  others := fun a outside =>
    (later.others a outside).trans (before.others a fun inside => outside (within inside))

theorem WritesOnly.mono {first second : List Nat} {dict dict' : Dict κ}
    (writes : WritesOnly first dict dict') (within : first ⊆ second) :
    WritesOnly second dict dict' :=
  ⟨writes.next, writes.nodecount, writes.sentinel,
    fun a outside => writes.others a fun inside => outside (within inside)⟩

theorem WritesOnly.refl (written : List Nat) (dict : Dict κ) : WritesOnly written dict dict :=
  ⟨rfl, rfl, rfl, fun _ _ => rfl⟩

theorem writesOnly_change {written : List Nat} {dict : Dict κ} {pointer : Pointer}
    (listed : ∀ a, pointer = .node a → a ∈ written) (update : Dnode κ → Dnode κ) :
    WritesOnly written dict (dict.change pointer update) where
  next := rfl
  nodecount := rfl
  sentinel := isSome_change ..
  others := fun a outside => by
    rw [change_memory, if_neg]
    exact fun same => outside (listed a same.symm)

/-! ## The chain -/

/-- Nodes chained by their left links. -/
def Segment (memory : Pointer → Option (Dnode κ)) (stop : Pointer) :
    Pointer → List (Nat × κ) → Prop
  | start, [] => start = stop
  | start, entry :: entries =>
      start = .node entry.1 ∧ ∃ node, memory start = some node ∧ node.key = some entry.2 ∧
        Segment memory stop node.left entries

theorem Segment.congr {memory memory' : Pointer → Option (Dnode κ)} {start stop : Pointer}
    {entries : List (Nat × κ)} (segment : Segment memory stop start entries)
    (same : ∀ entry ∈ entries, memory' (.node entry.1) = memory (.node entry.1)) :
    Segment memory' stop start entries := by
  induction entries generalizing start with
  | nil => exact segment
  | cons entry entries ih =>
      obtain ⟨rfl, node, found, key, rest⟩ := segment
      exact ⟨rfl, node, (same entry List.mem_cons_self).trans found, key,
        ih rest fun other member => same other (List.mem_cons_of_mem _ member)⟩

/-- The nodes of a list are chained behind a node. -/
def Chained (memory : Pointer → Option (Dnode κ)) (stop : Pointer) (first : Nat)
    (entries : List (Nat × κ)) : Prop :=
  ∃ node, memory (.node first) = some node ∧ Segment memory stop node.left entries

def lastOf (first : Nat) (entries : List (Nat × κ)) : Nat := (entries.map Prod.fst).getLastD first

theorem lastOf_cons (first : Nat) (entry : Nat × κ) (entries : List (Nat × κ)) :
    lastOf first (entry :: entries) = lastOf entry.1 entries := by
  rw [lastOf, List.map_cons, List.getLastD_cons, lastOf]

theorem lastOf_concat (first : Nat) (entry : Nat × κ) (entries : List (Nat × κ)) :
    lastOf first (entries ++ [entry]) = entry.1 := by
  simp [lastOf]

theorem lastOf_mem (first : Nat) (entries : List (Nat × κ)) :
    lastOf first entries ∈ first :: entries.map Prod.fst := by
  induction entries generalizing first with
  | nil => exact List.mem_cons_self
  | cons entry entries ih =>
      rw [lastOf_cons, List.map_cons]
      exact List.mem_cons_of_mem _ (ih entry.1)

/-- The last node of a chain is linked to another one. -/
theorem Chained.concat {memory memory' : Pointer → Option (Dnode κ)} {stop : Pointer} {first : Nat}
    {entries : List (Nat × κ)} {entry : Nat × κ} {added : Dnode κ}
    (chained : Chained memory stop first entries)
    (distinct : (first :: entries.map Prod.fst).Nodup)
    (updated : ∀ a ∈ first :: entries.map Prod.fst, ∀ node, memory (.node a) = some node →
      ∃ node', memory' (.node a) = some node' ∧ node'.key = node.key ∧
        node'.left = if a = lastOf first entries then .node entry.1 else node.left)
    (found : memory' (.node entry.1) = some added) (key : added.key = some entry.2)
    (link : added.left = stop) : Chained memory' stop first (entries ++ [entry]) := by
  induction entries generalizing first with
  | nil =>
      obtain ⟨node, foundFirst, -⟩ := chained
      obtain ⟨node', foundFirst', -, left⟩ := updated first List.mem_cons_self node foundFirst
      rw [if_pos (show first = lastOf first [] from rfl)] at left
      exact ⟨node', foundFirst', left, added, left ▸ found, key, link⟩
  | cons second entries ih =>
      obtain ⟨node, foundFirst, start, next, foundNext, keyNext, rest⟩ := chained
      rw [List.map_cons] at distinct updated
      obtain ⟨absent, distinct'⟩ := List.nodup_cons.mp distinct
      rw [lastOf_cons] at updated
      obtain ⟨node', foundFirst', -, left⟩ := updated first List.mem_cons_self node foundFirst
      have different : first ≠ lastOf second.1 entries := fun same =>
        absent (same ▸ lastOf_mem second.1 entries)
      rw [if_neg different, start] at left
      rw [start] at foundNext
      obtain ⟨last, foundLast, segment⟩ := ih ⟨next, foundNext, rest⟩ distinct'
        fun a member => updated a (List.mem_cons_of_mem _ member)
      obtain ⟨next', foundNext', keyNext', -⟩ :=
        updated second.1 (List.mem_cons_of_mem _ List.mem_cons_self) next foundNext
      rw [foundLast] at foundNext'
      cases foundNext'
      exact ⟨node', foundFirst', left, last, left ▸ foundLast, keyNext'.trans keyNext, segment⟩

/-- The nodes loaded so far are chained behind the sentinel of the load, whose right link is to
the last of them. -/
structure Loaded (dict : Dict κ) (loadnil : Nat) (entries : List (Nat × κ)) : Prop where
  chained : Chained dict.memory (.node loadnil) loadnil entries
  last : (dict.memory (.node loadnil)).map Dnode.right = some (.node (lastOf loadnil entries))
  nodecount : dict.nodecount = UInt64.ofNat entries.length

theorem dictLoadBegin_run (ndebug : Bool) {dict : Dict κ} {loadnil : Nat}
    (count : dictCount dict = 0) (own : (dict.memory (.node loadnil)).isSome) :
    ∃ dict', dictLoadBegin ndebug (.node loadnil) dict = .ok ((), dict') ∧ Loaded dict' loadnil [] ∧
      WritesOnly [loadnil] dict dict' := by
  obtain ⟨node, found⟩ := Option.isSome_iff_exists.mp own
  have listed : ∀ a, Pointer.node loadnil = .node a → a ∈ [loadnil] := fun a same =>
    List.mem_singleton.mpr (Pointer.node.inj same).symm
  refine ⟨(dict.change (.node loadnil) (Dnode.setChild .left (.node loadnil))).change
    (.node loadnil) (Dnode.setChild .right (.node loadnil)), ?_, ⟨?_, ?_, count⟩,
    (writesOnly_change listed _).trans (writesOnly_change listed _) (List.Subset.refl _)⟩
  · have isEmpty : dict.nodecount = 0 := count
    rw [dictLoadBegin, get_bind, assert_bind ndebug (decide_eq_true isEmpty), store_bind own,
      store_run (by simpa using own)]
  · refine ⟨(node.setChild .left (.node loadnil)).setChild .right (.node loadnil), ?_, rfl⟩
    simp only [change_memory, if_pos, found, Option.map_some]
  · simp only [change_memory, if_pos, found, Option.map_some]
    rfl

/-- The memory after the stores of `dict_load_next`. -/
def chainOn (dict : Dict κ) (loadnil last : Nat) (entry : Nat × κ) : Dict κ :=
  (((dict.change (.node entry.1) (Dnode.setKey entry.2)).change (.node last)
    (Dnode.setChild .left (.node entry.1))).change (.node loadnil)
    (Dnode.setChild .right (.node entry.1))).change (.node entry.1)
    (Dnode.setChild .left (.node loadnil))

/-- Of the nodes before only the last gets another left link. -/
theorem chainOn_front {dict : Dict κ} {loadnil last a : Nat} {entry : Nat × κ} {old : Dnode κ}
    (different : a ≠ entry.1) (found : dict.memory (.node a) = some old) :
    ∃ new, (chainOn dict loadnil last entry).memory (.node a) = some new ∧ new.key = old.key ∧
      (new.left = if a = last then .node entry.1 else old.left) ∧
      (a = loadnil → new.right = .node entry.1) := by
  by_cases atLast : a = last
  · by_cases atNil : a = loadnil
    · refine ⟨(old.setChild .left (.node entry.1)).setChild .right (.node entry.1), ?_, rfl,
        (if_pos atLast).symm, fun _ => rfl⟩
      subst atNil
      simp [chainOn, change_memory, different, ← atLast, found]
    · refine ⟨old.setChild .left (.node entry.1), ?_, rfl, (if_pos atLast).symm,
        fun same => absurd same atNil⟩
      simp [chainOn, change_memory, different, ← atLast, atNil, found]
  · by_cases atNil : a = loadnil
    · refine ⟨old.setChild .right (.node entry.1), ?_, rfl, (if_neg atLast).symm, fun _ => rfl⟩
      subst atNil
      simp [chainOn, change_memory, different, atLast, found]
    · refine ⟨old, ?_, rfl, (if_neg atLast).symm, fun same => absurd same atNil⟩
      simp [chainOn, change_memory, different, atLast, atNil, found]

theorem chainOn_added {dict : Dict κ} {loadnil last : Nat} {entry : Nat × κ} {added : Dnode κ}
    (offLast : entry.1 ≠ last) (offNil : entry.1 ≠ loadnil)
    (found : dict.memory (.node entry.1) = some added) :
    (chainOn dict loadnil last entry).memory (.node entry.1) =
      some ((added.setKey entry.2).setChild .left (.node loadnil)) := by
  simp [chainOn, change_memory, offLast, offNil, found]

theorem chainOn_others {dict : Dict κ} {loadnil last a : Nat} {entry : Nat × κ}
    (offNew : a ≠ entry.1) (offLast : a ≠ last) (offNil : a ≠ loadnil) :
    (chainOn dict loadnil last entry).memory (.node a) = dict.memory (.node a) := by
  simp [chainOn, change_memory, offNew, offLast, offNil]

/-- The chain is one node longer. -/
theorem Loaded.concat {dict dict' : Dict κ} {loadnil : Nat} {entries : List (Nat × κ)}
    {entry : Nat × κ} (loaded : Loaded dict loadnil entries)
    (front : (loadnil :: entries.map Prod.fst).Nodup)
    (fresh : entry.1 ∉ loadnil :: entries.map Prod.fst)
    (valid : (dict.memory (.node entry.1)).isSome)
    (memory : dict'.memory = (chainOn dict loadnil (lastOf loadnil entries) entry).memory)
    (nodecount : dict'.nodecount = dict.nodecount + 1) :
    Loaded dict' loadnil (entries ++ [entry]) := by
  obtain ⟨node, found, -⟩ := loaded.chained
  obtain ⟨added, foundAdded⟩ := Option.isSome_iff_exists.mp valid
  have offLast : entry.1 ≠ lastOf loadnil entries := fun same =>
    fresh (same ▸ lastOf_mem loadnil entries)
  have offNil : entry.1 ≠ loadnil := fun same => fresh (same ▸ List.mem_cons_self)
  refine ⟨?_, ?_, ?_⟩
  · rw [memory]
    refine loaded.chained.concat front (fun a inside old foundOld => ?_)
      (chainOn_added offLast offNil foundAdded) rfl rfl
    have different : a ≠ entry.1 := fun same => fresh (same ▸ inside)
    obtain ⟨new, foundNew, sameKey, left, -⟩ := chainOn_front different foundOld
    exact ⟨new, foundNew, sameKey, left⟩
  · obtain ⟨new, foundNil, -, -, right⟩ := chainOn_front offNil.symm found
    rw [memory, foundNil, Option.map_some, right rfl, lastOf_concat]
  · rw [nodecount, loaded.nodecount, List.length_append, List.length_singleton, UInt64.ofNat_add]
    rfl

/-- A node is chained behind the others. -/
theorem dictLoadNext_run {ndebug : Bool} {compare : κ → κ → Int} {dict : Dict κ} {loadnil : Nat}
    {entries : List (Nat × κ)} {entry : Nat × κ} (loaded : Loaded dict loadnil entries)
    (distinct : (loadnil :: (entries ++ [entry]).map Prod.fst).Nodup)
    (valid : (dict.memory (.node entry.1)).isSome)
    (nodes : ∀ a ∈ entries.map Prod.fst, (dict.memory (.node a)).isSome)
    (checked : ndebug = true ∨
      checkLoadNext compare (.node loadnil) (.node entry.1) entry.2 dict = .ok ((), dict)) :
    ∃ dict', dictLoadNext ndebug compare (.node loadnil) (.node entry.1) entry.2 dict =
        .ok ((), dict') ∧
      Loaded dict' loadnil (entries ++ [entry]) ∧ dict'.next = dict.next ∧
      (∀ a, a ∉ loadnil :: (entries ++ [entry]).map Prod.fst →
        dict'.memory (.node a) = dict.memory (.node a)) ∧
      ∀ pointer, (dict'.memory pointer).isSome = (dict.memory pointer).isSome := by
  obtain ⟨node, found, -⟩ := loaded.chained
  have last := loaded.last
  rw [found, Option.map_some, Option.some_inj] at last
  rw [List.map_append, ← List.cons_append] at distinct
  obtain ⟨front, -, apart⟩ := List.nodup_append.mp distinct
  have fresh : entry.1 ∉ loadnil :: entries.map Prod.fst := fun inside =>
    apart _ inside _ List.mem_cons_self rfl
  have lastIn := lastOf_mem loadnil entries
  have validLast : (dict.memory (.node (lastOf loadnil entries))).isSome := by
    rcases List.mem_cons.mp lastIn with same | member
    · rw [same, found]
      rfl
    · exact nodes _ member
  let dict' : Dict κ := { chainOn dict loadnil (lastOf loadnil entries) entry with
    nodecount := dict.nodecount + 1 }
  have run : dictLoadNext ndebug compare (.node loadnil) (.node entry.1) entry.2 dict =
      .ok ((), dict') := by
    have away : Pointer.node loadnil ≠ .node entry.1 := fun same =>
      fresh (Pointer.node.inj same ▸ List.mem_cons_self)
    have foundNil : (dict.change (.node entry.1) (Dnode.setKey entry.2)).memory (.node loadnil) =
        some node := by
      rw [change_memory, if_neg away, found]
    rw [dictLoadNext, checked_bind checked, store_bind valid, load_bind foundNil, last,
      store_bind (by simpa using validLast), store_bind (by simp [found]),
      store_bind (by simpa using valid)]
    rfl
  refine ⟨dict', run, loaded.concat front fresh valid rfl rfl, rfl, fun a outside => ?_,
    fun pointer => ?_⟩
  · rw [List.map_append, ← List.cons_append] at outside
    have offFront : a ∉ loadnil :: entries.map Prod.fst := fun inside =>
      outside (List.mem_append_left _ inside)
    exact chainOn_others
      (fun same => outside (List.mem_append_right _ (List.mem_singleton.mpr same)))
      (fun same => offFront (same ▸ lastIn)) (fun same => offFront (same ▸ List.mem_cons_self))
  · change ((chainOn _ _ _ _).memory pointer).isSome = _
    simp only [chainOn, isSome_change]

def Dnode.Free (node : Dnode κ) : Prop :=
  node.parent = .null ∨ node.left = .null ∨ node.right = .null

/-- What the assertion of `dict_load_next` on the order asks of a key: the sentinel's left link
is to the first node, not to the last. -/
def Admits (compare : κ → κ → Int) (loaded : List (Nat × κ)) (key : κ) : Prop :=
  ∀ first ∈ loaded.head?, compare first.2 key < 0

instance (compare : κ → κ → Int) (loaded : List (Nat × κ)) (key : κ) :
    Decidable (Admits compare loaded key) :=
  inferInstanceAs (Decidable (∀ first ∈ loaded.head?, compare first.2 key < 0))

theorem dnodeIsInADict_run {dict : Dict κ} {pointer : Pointer} {node : Dnode κ}
    (found : dict.memory pointer = some node) (free : node.Free) :
    dnodeIsInADict pointer dict = .ok (false, dict) := by
  rw [dnodeIsInADict, load_bind found]
  by_cases orphan : node.parent = .null
  · rw [if_pos orphan]
    rfl
  rw [if_neg orphan, load_bind found]
  by_cases noLeft : node.left = .null
  · rw [if_pos noLeft]
    rfl
  have noRight : node.right = .null := (free.resolve_left orphan).resolve_left noLeft
  rw [if_neg noLeft, load_bind found, noRight]
  rfl

/-- Of the assertions of `dict_load_next` only the one on the order can fail. -/
theorem checkLoadNext_run (compare : κ → κ → Int) {dict : Dict κ} {loadnil : Nat}
    {entries : List (Nat × κ)} {pointer : Pointer} {node : Dnode κ} (key : κ)
    (loaded : Loaded dict loadnil entries) (found : dict.memory pointer = some node)
    (free : node.Free) (size : entries.length < 2 ^ 64 - 1) :
    checkLoadNext compare (.node loadnil) pointer key dict =
      if Admits compare entries key then .ok ((), dict) else .error .assertion := by
  have count : dict.nodecount.toNat = entries.length := by
    rw [loaded.nodecount]
    exact UInt64.toNat_ofNat_of_lt' (show entries.length < 2 ^ 64 by omega)
  have room : dict.nodecount < DICTCOUNT_T_MAX := by
    rw [UInt64.lt_iff_toNat_lt, count]
    exact size
  have fits : assertThat (decide (dict.nodecount < DICTCOUNT_T_MAX)) dict = .ok ((), dict) := by
    rw [assertThat, if_pos (decide_eq_true room)]
    rfl
  have unused : assertThat (!false) dict = .ok ((), dict) := rfl
  rw [checkLoadNext, action_bind (dnodeIsInADict_run found free), action_bind unused, get_bind,
    action_bind fits, checkOrder, get_bind]
  obtain ⟨nilnode, foundNil, segment⟩ := loaded.chained
  cases entries with
  | nil =>
      have zero : ¬ dict.nodecount > 0 := by
        rw [gt_iff_lt, UInt64.lt_iff_toNat_lt, count]
        exact Nat.lt_irrefl 0
      have vacuous : Admits compare [] key := fun first member => by cases member
      rw [if_neg zero, if_pos vacuous]
      rfl
  | cons first entries =>
      have positive : dict.nodecount > 0 := by
        rw [gt_iff_lt, UInt64.lt_iff_toNat_lt, count]
        exact Nat.succ_pos _
      obtain ⟨start, firstNode, foundFirst, firstKey, -⟩ := segment
      have readKey : loadKey nilnode.left dict = .ok (first.2, dict) := by
        rw [loadKey, load_bind foundFirst, firstKey]
        rfl
      have admits_iff : Admits compare (first :: entries) key ↔ compare first.2 key < 0 := by
        simp [Admits]
      rw [if_pos positive, load_bind foundNil, action_bind readKey, assertThat]
      by_cases below : compare first.2 key < 0
      · rw [if_pos (decide_eq_true below), if_pos (admits_iff.mpr below)]
        rfl
      · rw [if_neg (by simpa using below), if_neg (fun admits => below (admits_iff.mp admits))]

/-- What the assertions on the order ask of the keys that follow others. -/
def Admitted (compare : κ → κ → Int) : List (Nat × κ) → List (Nat × κ) → Prop
  | _, [] => True
  | loaded, entry :: entries =>
      Admits compare loaded entry.2 ∧ Admitted compare (loaded ++ [entry]) entries

theorem admitted_cons_iff (compare : κ → κ → Int) (first : Nat × κ)
    (loaded entries : List (Nat × κ)) :
    Admitted compare (first :: loaded) entries ↔
      ∀ entry ∈ entries, compare first.2 entry.2 < 0 := by
  induction entries generalizing loaded with
  | nil => simp [Admitted]
  | cons entry entries ih =>
      rw [Admitted, List.cons_append, ih (loaded ++ [entry])]
      simp [Admits]

theorem admitted_nil_iff (compare : κ → κ → Int) (entries : List (Nat × κ)) :
    Admitted compare [] entries ↔
      ∀ first ∈ entries.head?, ∀ entry ∈ entries.tail, compare first.2 entry.2 < 0 := by
  cases entries with
  | nil => simp [Admitted]
  | cons entry entries =>
      rw [Admitted, List.nil_append, admitted_cons_iff]
      simp [Admits]

/-- Some nodes are chained, and others wait to be. -/
structure Loading (dict : Dict κ) (loadnil : Nat) (front entries : List (Nat × κ)) : Prop where
  loaded : Loaded dict loadnil front
  distinct : (loadnil :: (front ++ entries).map Prod.fst).Nodup
  nodes : ∀ a ∈ (front ++ entries).map Prod.fst, (dict.memory (.node a)).isSome
  size : (front ++ entries).length < 2 ^ 64

def AllFree (dict : Dict κ) (entries : List (Nat × κ)) : Prop :=
  ∀ a ∈ entries.map Prod.fst, ∀ node, dict.memory (.node a) = some node → node.Free

section Next

variable {compare : κ → κ → Int} {dict : Dict κ} {loadnil : Nat} {front entries : List (Nat × κ)}
  {entry : Nat × κ}

/-- The assertions on the next node. -/
theorem Loading.check (loading : Loading dict loadnil front (entry :: entries))
    (free : AllFree dict (entry :: entries)) :
    checkLoadNext compare (.node loadnil) (.node entry.1) entry.2 dict =
      if Admits compare front entry.2 then .ok ((), dict) else .error .assertion := by
  have own : (dict.memory (.node entry.1)).isSome := loading.nodes entry.1 (by simp)
  obtain ⟨node, found⟩ := Option.isSome_iff_exists.mp own
  have size := loading.size
  rw [List.length_append, List.length_cons] at size
  exact checkLoadNext_run compare entry.2 loading.loaded found
    (free entry.1 List.mem_cons_self node found) (by omega)

/-- The next node is chained, and the others still wait. -/
theorem Loading.next {ndebug : Bool} (loading : Loading dict loadnil front (entry :: entries))
    (checked : ndebug = true ∨
      checkLoadNext compare (.node loadnil) (.node entry.1) entry.2 dict = .ok ((), dict)) :
    ∃ between, dictLoadNext ndebug compare (.node loadnil) (.node entry.1) entry.2 dict =
        .ok ((), between) ∧
      Loading between loadnil (front ++ [entry]) entries ∧ between.next = dict.next ∧
      (AllFree dict (entry :: entries) → AllFree between entries) ∧
      ∀ pointer, (between.memory pointer).isSome = (dict.memory pointer).isSome := by
  obtain ⟨loaded, distinct, nodes, size⟩ := loading
  have split : front ++ entry :: entries = (front ++ [entry]) ++ entries := by
    rw [List.append_assoc, List.singleton_append]
  rw [split] at distinct nodes size
  have apart := distinct
  rw [List.map_append, ← List.cons_append] at apart
  obtain ⟨start, -, later⟩ := List.nodup_append.mp apart
  have before : ∀ a ∈ front.map Prod.fst, (dict.memory (.node a)).isSome := by
    intro a member
    refine nodes a ?_
    rw [List.map_append, List.map_append]
    exact List.mem_append_left _ (List.mem_append_left _ member)
  obtain ⟨between, step, loaded', next, same, valid⟩ :=
    dictLoadNext_run loaded start (nodes entry.1 (by simp)) before checked
  refine ⟨between, step, ⟨loaded', distinct, fun a member => ?_, size⟩, next,
    fun free a member node found => ?_, valid⟩
  · rw [valid]
    exact nodes a member
  · rw [same a fun inside => later _ inside _ member rfl] at found
    exact free a (List.mem_cons_of_mem _ member) node found

end Next

/-- The nodes are chained in their order when no assertion stops that. -/
theorem loadAll_run {ndebug : Bool} {compare : κ → κ → Int} {dict : Dict κ} {loadnil : Nat}
    {front entries : List (Nat × κ)} (loading : Loading dict loadnil front entries)
    (passes : ndebug = true ∨ Admitted compare front entries ∧ AllFree dict entries) :
    ∃ dict', loadAll ndebug compare (.node loadnil) entries dict = .ok ((), dict') ∧
      Loaded dict' loadnil (front ++ entries) ∧ dict'.next = dict.next ∧
      ∀ pointer, (dict'.memory pointer).isSome = (dict.memory pointer).isSome := by
  induction entries generalizing dict front with
  | nil =>
      rw [List.append_nil]
      exact ⟨dict, rfl, loading.loaded, rfl, fun _ => rfl⟩
  | cons entry entries ih =>
      have checked : ndebug = true ∨ checkLoadNext compare (.node loadnil) (.node entry.1) entry.2
          dict = .ok ((), dict) :=
        passes.imp_right fun ⟨admitted, free⟩ => (loading.check free).trans (if_pos admitted.1)
      obtain ⟨between, step, loading', next, free', valid⟩ := loading.next checked
      obtain ⟨dict', run, whole, next', valid'⟩ := ih loading'
        (passes.imp_right fun ⟨admitted, free⟩ => ⟨admitted.2, free' free⟩)
      rw [List.append_assoc, List.singleton_append] at whole
      refine ⟨dict', ?_, whole, next'.trans next,
        fun pointer => (valid' pointer).trans (valid pointer)⟩
      rw [loadAll, action_bind step, run]

/-- A key that is not admitted stops the load. -/
theorem loadAll_stops {compare : κ → κ → Int} {dict : Dict κ} {loadnil : Nat}
    {front entries : List (Nat × κ)} (loading : Loading dict loadnil front entries)
    (free : AllFree dict entries) (refused : ¬ Admitted compare front entries) :
    loadAll false compare (.node loadnil) entries dict = .error .assertion := by
  induction entries generalizing dict front with
  | nil => exact absurd trivial refused
  | cons entry entries ih =>
      rw [loadAll]
      by_cases admits : Admits compare front entry.2
      · obtain ⟨between, step, loading', -, free', -⟩ :=
          loading.next (.inr ((loading.check free).trans (if_pos admits)))
        rw [action_bind step]
        exact ih loading' (free' free) fun admitted => refused ⟨admits, admitted⟩
      · refine fault_bind ?_ _
        exact fault_bind ((loading.check free).trans (if_neg admits)) _
end M2Handler.Adt

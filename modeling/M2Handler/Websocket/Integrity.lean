import M2Handler.Adt.Ownership
import M2Handler.Adt.Verification
import M2Handler.Websocket.SessionRuns

/-!
# The integrity of a session store

After any calls the nodes in memory are those of the tree, one for each session, and
`dict_free_nodes` leaves none.  The tree passes `dict_verify` unless a session is in it
twice.
-/

namespace M2Handler.Websocket.Session

open Machine RedBlack RedBlack.Tree Adt Handler

/-- A store that nobody holds has these sessions and no other nodes. -/
def Possesses (state : M2WsSessionsState) (ids : Multiset Int32) : Prop :=
  state.locked = false ∧
    ∃ tree, Stores state.dict tree ∧ Owns state.dict tree ∧ connIds tree = ids

section Calls

variable {dict : Dict M2WsSessionId} {tree : RedBlack.Tree (Nat × M2WsSessionId)}
  (stores : Stores dict tree) (owns : Owns dict tree) (req : Mongrel2Request)
include stores owns

theorem add_owns :
    ∃ dict' tree', mongrel2WsSessionsStateAdd req { dict, locked := false } =
        .ok (0, { dict := dict', locked := false }) ∧
      Stores dict' tree' ∧ Owns dict' tree' ∧ connIds tree' = req.connId ::ₘ connIds tree := by
  obtain ⟨dict', tree', run, stores', added⟩ := insert_run stores req
  refine ⟨dict', tree', ?_, stores', owns.insert compareSessionId run added, connIds_perm added⟩
  rw [mongrel2WsSessionsStateAdd, lock_bind, onDict_bind run]
  rfl

theorem contains_owns :
    ∃ dict', mongrel2WsSessionsStateContains req { dict, locked := false } =
        .ok (if req.connId ∈ connIds tree then 1 else 0, { dict := dict', locked := false }) ∧
      Stores dict' tree ∧ Owns dict' tree := by
  obtain ⟨dict', looked, kept⟩ := lookup_run stores req
  refine ⟨dict', ?_, kept, owns.keeps (keeps_dictLookup _ _) looked⟩
  rw [mongrel2WsSessionsStateContains, lock_bind, onDict_bind looked]
  obtain ⟨nothing, absent⟩ | ⟨entry, inTree, found, same⟩ := find_towards stores req.connId
  · rw [nothing, if_neg absent]
    rfl
  · have live : req.connId ∈ connIds tree :=
      Multiset.mem_coe.mpr (List.mem_map.mpr ⟨entry, inTree, same⟩)
    rw [found, if_pos live]
    rfl

theorem remove_owns (live : req.connId ∈ connIds tree) :
    ∃ dict' tree', mongrel2WsSessionsStateRemove req { dict, locked := false } =
        .ok (0, { dict := dict', locked := false }) ∧
      Stores dict' tree' ∧ Owns dict' tree' ∧
        connIds tree' = (connIds tree).erase req.connId := by
  obtain ⟨between, looked, kept⟩ := lookup_run stores req
  obtain ⟨-, absent⟩ | ⟨entry, inTree, found, same⟩ := find_towards stores req.connId
  · exact absurd live absent
  · obtain ⟨dict', tree', deleted, stores', removed⟩ := delete_run kept inTree
    have owned := owns.keeps (keeps_dictLookup _ _) looked
    refine ⟨dict', tree', ?_, stores', owned.delete deleted kept.holds.distinct removed, ?_⟩
    · rw [mongrel2WsSessionsStateRemove, lock_bind, onDict_bind looked, found]
      rw [show pointerTo (some entry) = .node entry.1 from rfl, onDict_bind deleted]
      rfl
    · rw [connIds_perm removed, same, Multiset.erase_cons_head]

end Calls

/-- The store is a bag of connection ids that has no other nodes. -/
theorem refines_owned : Refines SessionCall.run bag Possesses where
  returns call possesses allowed := by
    rename_i state ids
    obtain ⟨dict, locked⟩ := state
    obtain ⟨rfl, tree, stores, owns, rfl⟩ := possesses
    cases call with
    | add req =>
        obtain ⟨dict', tree', run, stores', owns', same⟩ := add_owns stores owns req
        exact ⟨_, run, rfl, tree', stores', owns', same⟩
    | remove req =>
        obtain ⟨dict', tree', run, stores', owns', same⟩ := remove_owns stores owns req allowed
        exact ⟨_, run, rfl, tree', stores', owns', same⟩
    | contains req =>
        obtain ⟨dict', run, stores', owns'⟩ := contains_owns stores owns req
        exact ⟨_, run, rfl, tree, stores', owns', rfl⟩
  faults call possesses refused := by
    obtain ⟨unlocked, tree, stores, -, same⟩ := possesses
    exact refines_bag.faults call ⟨unlocked, tree, stores, same⟩ refused

theorem possesses_start : Possesses { dict := dictInit, locked := false } 0 :=
  ⟨rfl, .nil, stores_dictInit, owns_dictInit, rfl⟩

theorem sessionRun_eq (calls : List SessionCall) :
    sessionRun calls = runCalls SessionCall.run calls { dict := dictInit, locked := false } :=
  (rfl)

theorem possesses_of_run {calls : List SessionCall} {answers : List Int}
    {state : M2WsSessionsState} (reached : sessionRun calls = .ok (answers, state)) :
    Possesses state (bag.after 0 calls) := by
  rw [sessionRun_eq] at reached
  exact (refines_owned.run_inv possesses_start reached).2.2

theorem card_connIds_eq (tree : RedBlack.Tree (Nat × M2WsSessionId)) :
    (connIds tree).card = tree.inorder.length := by
  rw [connIds, Multiset.coe_card, List.length_map]

/-! ## No node is lost -/

/-- After any calls there is one node in memory for each session of the store, and
when `dict_free_nodes` has run on it there is none. -/
theorem no_node_lost {calls : List SessionCall} {answers : List Int} {state : M2WsSessionsState}
    (reached : sessionRun calls = .ok (answers, state)) :
    (∃ nodes : Finset Nat, nodes.card = (bag.after 0 calls).card ∧
      ∀ a, (state.dict.memory (.node a)).isSome ↔ a ∈ nodes) ∧
    ∃ dict', dictFreeNodes state.dict = .ok ((), dict') ∧ dictCount dict' = 0 ∧
      ∀ a, dict'.memory (.node a) = none := by
  obtain ⟨-, tree, stores, owns, same⟩ := possesses_of_run reached
  refine ⟨⟨(addresses tree).toFinset, ?_, fun a => ?_⟩, ?_⟩
  · rw [List.toFinset_card_of_nodup stores.holds.distinct, ← same, card_connIds_eq, addresses,
      List.length_map]
  · rw [List.mem_toFinset]
    exact owns a
  · obtain ⟨dict', run, -, count, gone, others, -⟩ := dictFreeNodes_run stores.holds
    refine ⟨dict', run, count, fun a => ?_⟩
    by_cases inTree : a ∈ addresses tree
    · exact gone a inTree
    · rw [others _ (Pointer.node_ne_nil a) fun b member same =>
        inTree (Pointer.node.inj same ▸ member)]
      exact Option.not_isSome_iff_eq_none.mp fun some => inTree ((owns a).mp some)

/-- The same connection added twice. -/
theorem no_node_lost_twice :
    ∃ answers state dict',
      sessionRun [.add (requestOf 7), .add (requestOf 7)] = .ok (answers, state) ∧
      dictFreeNodes state.dict = .ok ((), dict') ∧ ∀ a, dict'.memory (.node a) = none := by
  obtain ⟨state, reached, -⟩ :=
    @run_of_allowed [.add (requestOf 7), .add (requestOf 7)] ⟨trivial, trivial, trivial⟩
  obtain ⟨-, dict', run, -, gone⟩ := no_node_lost reached
  exact ⟨_, state, dict', reached, run, gone⟩

/-! ## The integrity check -/

/-- The nodes are in strict order exactly when no session is there twice. -/
theorem ascending_iff {tree : RedBlack.Tree (Nat × M2WsSessionId)} (sorted : Sorted rank tree) :
    Ascending compareSessionId tree.inorder ↔ (connIds tree).Nodup := by
  have below (first second : Nat × M2WsSessionId) :
      compareSessionId first.2 second.2 < 0 ↔ rank first < rank second :=
    decide_eq_decide.mp (isBelow_compareSessionId first.2 second)
  have strict : Ascending compareSessionId tree.inorder ↔
      tree.inorder.Pairwise fun first second => rank first < rank second := by
    rw [Ascending, show (fun first second : Nat × M2WsSessionId =>
      compareSessionId first.2 second.2 < 0) = fun first second => rank first < rank second from
        funext fun first => funext fun second => propext (below first second)]
    rw [← List.isChain_map rank (R := (· < ·)), List.isChain_iff_pairwise, List.pairwise_map]
  have distinct : (connIds tree).Nodup ↔
      tree.inorder.Pairwise fun first second => first.2.req.connId ≠ second.2.req.connId := by
    rw [connIds]
    exact Multiset.coe_nodup.trans List.pairwise_map
  rw [strict, distinct]
  constructor
  · refine fun ascending => ascending.imp fun smaller same => ?_
    rw [rank, rank, same] at smaller
    exact absurd smaller (lt_irrefl _)
  · refine fun apart => (sorted.and apart).imp fun {first second} both => ?_
    exact lt_of_le_of_ne both.1 fun same => both.2 (Int32.toInt_inj.mp same)

/-- After any calls that leave a session in the store, `dict_verify` accepts the tree
exactly when no session is in it twice. -/
theorem verifies_iff_nodup {calls : List SessionCall} {answers : List Int}
    {state : M2WsSessionsState} (reached : sessionRun calls = .ok (answers, state))
    (some : bag.after 0 calls ≠ 0) :
    ∃ answer dict', dictVerify compareSessionId state.dict = .ok (answer, dict') ∧
      (answer = 0 ∨ answer = 1) ∧ (answer = 1 ↔ (bag.after 0 calls).Nodup) := by
  obtain ⟨-, tree, stores, -, same⟩ := possesses_of_run reached
  rw [← same] at some ⊢
  have room (ascending : Ascending compareSessionId tree.inorder) :
      tree.inorder.length < 2 ^ 64 := by
    have nodup := (ascending_iff stores.sorted).mp ascending
    rw [← card_connIds_eq]
    exact card_connIds ⟨connIds tree, nodup⟩
  obtain ⟨answer, dict', run, -, binary, iff⟩ :=
    dictVerify_run compareSessionId stores.holds room
  refine ⟨answer, dict', run, binary, iff.trans ⟨fun verified => ?_, fun nodup => ?_⟩⟩
  · exact (ascending_iff stores.sorted).mp verified.ascending
  · refine ⟨stores.redBlack, (ascending_iff stores.sorted).mpr nodup, stores.counted, ?_⟩
    cases root : tree with
    | nil =>
        rw [root] at some
        exact absurd rfl some
    | node color left entry right =>
        have stored := stores.holds.stored
        rw [root] at stored
        rw [address, stored.1]
        rfl

/-- The check rejects the store in which a connection is twice. -/
theorem verifies_iff_nodup_twice :
    ∃ answers state dict',
      sessionRun [.add (requestOf 7), .add (requestOf 7)] = .ok (answers, state) ∧
      dictVerify compareSessionId state.dict = .ok (0, dict') := by
  obtain ⟨state, reached, -⟩ :=
    @run_of_allowed [.add (requestOf 7), .add (requestOf 7)] ⟨trivial, trivial, trivial⟩
  obtain ⟨answer, dict', run, binary, iff⟩ := verifies_iff_nodup reached (by decide)
  have rejected : answer = 0 := binary.resolve_right fun one => absurd (iff.mp one) (by decide)
  rw [rejected] at run
  exact ⟨_, state, dict', reached, run⟩

end M2Handler.Websocket.Session

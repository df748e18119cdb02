import M2Handler.Adt.Processing
import M2Handler.Websocket.Integrity

/-!
# Sweeping a session store

`dict_process` on a session store with a function that deletes the sessions of some
connections: exactly these are gone, whatever calls were made before.
-/

namespace M2Handler.Websocket.Session

open Machine RedBlack RedBlack.Tree Adt Handler

def dropIf (test : Int32 → Bool) (current : Pointer) (count : Nat) :
    DictM M2WsSessionId Nat := do
  let ses ← loadKey current
  if test ses.req.connId then
    dictDeleteFree current
    pure (count + 1)
  else pure count

/-- What `dropIf` decides about an entry. -/
def dropStep (test : Int32 → Bool) (entry : Nat × M2WsSessionId) (count : Nat) : Nat × Bool :=
  if test entry.2.req.connId then (count + 1, true) else (count, false)

/-- A sweep counts the entries that pass the test and leaves the others. -/
theorem sweep_dropStep (test : Int32 → Bool) (entries : List (Nat × M2WsSessionId))
    (count : Nat) :
    sweep (dropStep test) entries count =
      (count + entries.countP (fun entry => test entry.2.req.connId),
        entries.filter fun entry => !test entry.2.req.connId) := by
  induction entries generalizing count with
  | nil => rfl
  | cons entry rest ih =>
      cases passed : test entry.2.req.connId with
      | false =>
          have decided : dropStep test entry count = (count, false) := by
            rw [dropStep, passed]
            rfl
          simp only [sweep, decided, ih]
          rw [List.countP_cons_of_neg (by simp [passed]), List.filter_cons_of_pos (by simp [passed])]
          rfl
      | true =>
          have decided : dropStep test entry count = (count + 1, true) := by
            rw [dropStep, passed]
            rfl
          simp only [sweep, decided, ih]
          rw [List.countP_cons_of_pos (by simp [passed]), List.filter_cons_of_neg (by simp [passed]),
            if_pos trivial, Nat.add_right_comm, Nat.add_assoc]

def Holding (dict : Dict M2WsSessionId) (tree : RedBlack.Tree (Nat × M2WsSessionId)) : Prop :=
  Stores dict tree ∧ Owns dict tree

variable {dict : Dict M2WsSessionId}

theorem holding_reads (action : DictM M2WsSessionId β) (result : β)
    (dict : Dict M2WsSessionId) (tree : RedBlack.Tree (Nat × M2WsSessionId))
    (keeps : Keeps action) (rewrites : Rewrites action tree result tree)
    (holding : Holding dict tree) :
    ∃ dict', action dict = .ok (result, dict') ∧ Holding dict' tree := by
  obtain ⟨dict', run, kept⟩ := holding.1.rewrites rewrites
  exact ⟨dict', run, kept, holding.2.keeps keeps run⟩

/-- A deletion closes the gap where the node was. -/
theorem delete_at {path : List (Frame (Nat × M2WsSessionId))} {color : Color}
    {left right : RedBlack.Tree (Nat × M2WsSessionId)} {entry : Nat × M2WsSessionId}
    (holding : Holding dict (plug path (.node color left entry right))) :
    ∃ dict' tree', dictDeleteFree (.node entry.1) dict = .ok ((), dict') ∧ Holding dict' tree' ∧
      tree'.inorder = before path ++ left.inorder ++ (right.inorder ++ after path) := by
  obtain ⟨stores, owns⟩ := holding
  have inTree : entry ∈ (plug path (.node color left entry right)).inorder := by
    simp [inorder_plug]
  obtain ⟨dict', tree', run, stores', removed⟩ := delete_run stores inTree
  obtain ⟨dict'', run', held, -, -⟩ := dictDeleteFree_run stores.holds stores.redBlack
  rw [run] at run'
  cases run'
  refine ⟨dict', tree', run, ⟨stores', owns.delete run stores.holds.distinct removed⟩, ?_⟩
  rw [stores'.holds.unique held, inorder_remove]
  simp

theorem sweeps_dropIf (test : Int32 → Bool) : Sweeps Holding (dropStep test) (dropIf test) := by
  intro dict path color left right entry count holding
  obtain ⟨between, loaded, kept⟩ := holding_reads _ _ _ _ (keeps_loadKey _)
    (rewrites_loadKey path .left color left right entry) holding
  cases passed : test entry.2.req.connId with
  | false =>
      refine ⟨between, _, ?_, kept, ?_⟩
      · rw [dropIf, action_bind loaded, passed, dropStep, passed]
        rfl
      · rw [dropStep, passed]
        simp [join, inorder_plug]
  | true =>
      obtain ⟨dict', tree', deleted, holding', order⟩ := delete_at kept
      refine ⟨dict', tree', ?_, holding', ?_⟩
      · rw [dropIf, action_bind loaded, passed, dropStep, passed, if_pos rfl,
          action_bind deleted]
        rfl
      · rw [dropStep, passed, order]
        simp

/-- After any calls `dict_process` deletes exactly the sessions that pass a test, each
node of which is freed, and the store goes on as the bag of the others. -/
theorem sweep_filters {calls : List SessionCall} {answers : List Int} {state : M2WsSessionsState}
    (reached : sessionRun calls = .ok (answers, state)) (test : Int32 → Bool) :
    ∃ dict', dictProcess (dropIf test) 0 state.dict =
        .ok ((bag.after 0 calls).countP (fun id => test id = true), dict') ∧
      Possesses { state with dict := dict' }
        ((bag.after 0 calls).filter fun id => test id = false) := by
  obtain ⟨free, tree, stores, owns, same⟩ := possesses_of_run reached
  obtain ⟨dict', tree', run, ⟨stores', owns'⟩, left⟩ := dictProcess_run
    (fun _ _ holding => holding.1.holds) (fun action => holding_reads action)
    (sweeps_dropIf test) 0 ⟨stores, owns⟩
  rw [sweep_dropStep] at run left
  refine ⟨dict', ?_, free, tree', stores', owns', ?_⟩
  · rw [run, ← same, connIds, Multiset.coe_countP, List.countP_map, Nat.zero_add]
    simp [Function.comp_def]
  · rw [connIds, left, ← same, connIds, Multiset.filter_coe, List.filter_map]
    simp [Function.comp_def]

/-- One of two connections goes, and there is one node for the other. -/
theorem sweep_filters_seven :
    ∃ answers state dict', sessionRun [.add (requestOf 9), .add (requestOf 7)] =
        .ok (answers, state) ∧
      dictProcess (dropIf (· == 7)) 0 state.dict = .ok (1, dict') ∧
      Possesses { state with dict := dict' } {9} := by
  obtain ⟨state, reached, -⟩ :=
    @run_of_allowed [.add (requestOf 9), .add (requestOf 7)] ⟨trivial, trivial, trivial⟩
  obtain ⟨dict', run, possesses⟩ := sweep_filters reached (· == 7)
  refine ⟨_, state, dict', reached, ?_, ?_⟩
  · rw [run]
    rfl
  · have others : (bag.after 0 [.add (requestOf 9), .add (requestOf 7)]).filter
        (fun id => (id == 7) = false) = {9} := by decide
    rwa [others] at possesses

end M2Handler.Websocket.Session

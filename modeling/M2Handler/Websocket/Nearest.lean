import M2Handler.Adt.Bounds
import M2Handler.Websocket.SessionRuns

/-!
# The nearest sessions

The four functions of the dictionary that look for a bound, on the store of sessions
that any calls leave.
-/

namespace M2Handler.Websocket.Session

open Machine RedBlack RedBlack.Tree Adt Handler

def foundId (search : DictM M2WsSessionId Pointer) : DictM M2WsSessionId (Option Int32) := do
  let node ← search
  if node = .null then pure none
  else do
    let ses ← loadKey node
    pure (some ses.req.connId)

/-- The search leads to the nearest of the ids that are sought, and to null when there is
none; the store keeps its sessions. -/
def Finds (state : M2WsSessionsState) (ids : Multiset Int32)
    (search : DictM M2WsSessionId Pointer) (nearest : Set Int32 → Int32 → Prop)
    (sought : Set Int32) : Prop :=
  ∃ found dict', foundId search state.dict = .ok (found, dict') ∧
    Represents { state with dict := dict' } ids ∧ (found = none ↔ sought = ∅) ∧
    ∀ id ∈ found, nearest sought id

variable {tree : RedBlack.Tree (Nat × M2WsSessionId)}

theorem rewrites_foundId {search : DictM M2WsSessionId Pointer}
    {found : Option (Nat × M2WsSessionId)}
    (searched : Rewrites search tree (pointerTo found) tree)
    (inTree : ∀ entry ∈ found, entry ∈ tree.inorder) :
    Rewrites (foundId search) tree (found.map fun entry => entry.2.req.connId) tree := by
  unfold foundId
  refine searched.bind ?_
  cases found with
  | none => exact rewrites_pure _ _
  | some entry =>
      obtain ⟨front, back, place⟩ := List.append_of_mem (inTree entry rfl)
      obtain ⟨path, color, left, right, rfl, -, -⟩ := exists_path place
      have nonnull : pointerTo (some entry) ≠ .null := by simp [pointerTo]
      rw [if_neg nonnull]
      exact (rewrites_loadKey path .left color left right entry).bind (rewrites_pure _ _)

theorem mem_connIds {id : Int32} :
    id ∈ connIds tree ↔ ∃ entry ∈ tree.inorder, entry.2.req.connId = id := by
  rw [connIds]
  exact Multiset.mem_coe.trans List.mem_map

theorem finds_bound {state : M2WsSessionsState} {ids : Multiset Int32}
    (represents : Represents state ids) (req : Mongrel2Request) (side : Side) (strict : Bool)
    {nearest : Set Int32 → Int32 → Prop} {sought : Set Int32}
    (seeks : ∀ id, id ∈ sought ↔ id ∈ ids ∧ Beyond side strict req.connId.toInt id.toInt)
    (first : ∀ id ∈ sought, (∀ other ∈ sought, ¬ side.Precedes other.toInt id.toInt) →
      nearest sought id) :
    Finds state ids (dictBound compareSessionId { req } side strict) nearest sought := by
  obtain ⟨free, tree, stores, rfl⟩ := represents
  have searched := rewrites_dictBound compareSessionId { req } side strict tree
  simp only [heading_compareSessionId] at searched
  have bounded := bound_nearest stores.sorted side strict req.connId.toInt
  cases ended : bound side strict (towards rank req.connId.toInt) none tree with
  | none =>
      rw [ended] at searched bounded
      obtain ⟨dict', run, kept⟩ := stores.rewrites
        (rewrites_foundId searched fun entry impossible => by cases impossible)
      refine ⟨_, dict', run, ⟨free, tree, kept, rfl⟩, ?_, fun id impossible => by cases impossible⟩
      refine iff_of_true rfl (Set.eq_empty_iff_forall_notMem.mpr fun id member => ?_)
      obtain ⟨live, beyond⟩ := (seeks id).mp member
      obtain ⟨entry, inTree, rfl⟩ := mem_connIds.mp live
      exact bounded entry inTree beyond
  | some entry =>
      rw [ended] at searched bounded
      obtain ⟨inTree, beyond, least⟩ := bounded
      have member : entry.2.req.connId ∈ sought :=
        (seeks _).mpr ⟨mem_connIds.mpr ⟨entry, inTree, rfl⟩, beyond⟩
      obtain ⟨dict', run, kept⟩ := stores.rewrites
        (rewrites_foundId searched (by rintro _ ⟨⟩; exact inTree))
      refine ⟨_, dict', run, ⟨free, tree, kept, rfl⟩, ?_, ?_⟩
      · exact iff_of_false (by simp) fun empty => by simp [empty] at member
      · rintro _ ⟨⟩
        refine first _ member fun other sought' => ?_
        obtain ⟨live, beyond'⟩ := (seeks other).mp sought'
        obtain ⟨entry', inTree', rfl⟩ := mem_connIds.mp live
        exact least entry' inTree' beyond'

theorem beyond_left_strict {key other : Int} : Beyond .left true key other ↔ key < other := by
  simp [Beyond, Side.Precedes]

theorem beyond_right_strict {key other : Int} : Beyond .right true key other ↔ other < key := by
  simp [Beyond, Side.Precedes]

theorem beyond_left {key other : Int} : Beyond .left false key other ↔ key ≤ other := by
  simp [Beyond, Side.Precedes, le_iff_lt_or_eq]

theorem beyond_right {key other : Int} : Beyond .right false key other ↔ other ≤ key := by
  simp [Beyond, Side.Precedes, le_iff_lt_or_eq, eq_comm]

/-- After any calls the four searches lead to the sessions that are nearest to a
connection. -/
theorem bounds_nearest {calls : List SessionCall} {answers : List Int} {state : M2WsSessionsState}
    (reached : sessionRun calls = .ok (answers, state)) (req : Mongrel2Request) :
    Finds state (bag.after 0 calls) (dictLowerBound compareSessionId { req }) IsLeast
      {id | id ∈ bag.after 0 calls ∧ req.connId ≤ id} ∧
    Finds state (bag.after 0 calls) (dictUpperBound compareSessionId { req }) IsGreatest
      {id | id ∈ bag.after 0 calls ∧ id ≤ req.connId} ∧
    Finds state (bag.after 0 calls) (dictStrictLowerBound compareSessionId { req }) IsLeast
      {id | id ∈ bag.after 0 calls ∧ req.connId < id} ∧
    Finds state (bag.after 0 calls) (dictStrictUpperBound compareSessionId { req }) IsGreatest
      {id | id ∈ bag.after 0 calls ∧ id < req.connId} := by
  obtain ⟨-, -, represents⟩ := represents_of_run reached
  have least {sought : Set Int32} (id : Int32) (member : id ∈ sought)
      (first : ∀ other ∈ sought, ¬ Side.left.Precedes other.toInt id.toInt) : IsLeast sought id :=
    ⟨member, fun other sought' => Int32.le_iff_toInt_le.mpr (not_lt.mp (first other sought'))⟩
  have greatest {sought : Set Int32} (id : Int32) (member : id ∈ sought)
      (first : ∀ other ∈ sought, ¬ Side.right.Precedes other.toInt id.toInt) :
      IsGreatest sought id :=
    ⟨member, fun other sought' => Int32.le_iff_toInt_le.mpr (not_lt.mp (first other sought'))⟩
  refine ⟨?_, ?_, ?_, ?_⟩
  · refine finds_bound represents req .left false (fun id => and_congr_right' ?_) least
    exact Int32.le_iff_toInt_le.trans beyond_left.symm
  · refine finds_bound represents req .right false (fun id => and_congr_right' ?_) greatest
    exact Int32.le_iff_toInt_le.trans beyond_right.symm
  · refine finds_bound represents req .left true (fun id => and_congr_right' ?_) least
    exact Int32.lt_iff_toInt_lt.trans beyond_left_strict.symm
  · refine finds_bound represents req .right true (fun id => and_congr_right' ?_) greatest
    exact Int32.lt_iff_toInt_lt.trans beyond_right_strict.symm

/-- Three connections, and what is nearest to the middle one. -/
theorem bounds_nearest_three :
    ∃ answers state dict' dict'',
      sessionRun [.add (requestOf 9), .add (requestOf (-3)), .add (requestOf 7)] =
        .ok (answers, state) ∧
      foundId (dictStrictLowerBound compareSessionId { req := requestOf 7 }) state.dict =
        .ok (some 9, dict') ∧
      foundId (dictStrictUpperBound compareSessionId { req := requestOf 7 }) state.dict =
        .ok (some (-3), dict'') := by
  obtain ⟨state, reached, -⟩ :=
    @run_of_allowed [.add (requestOf 9), .add (requestOf (-3)), .add (requestOf 7)]
      ⟨trivial, trivial, trivial, trivial⟩
  obtain ⟨-, -, ⟨above, dict', runAbove, -, noneAbove, least⟩,
    ⟨below, dict'', runBelow, -, noneBelow, greatest⟩⟩ := bounds_nearest reached (requestOf 7)
  have live (id : Int32) : id ∈ bag.after 0 [.add (requestOf 9), .add (requestOf (-3)),
      .add (requestOf 7)] ↔ id = 7 ∨ id = -3 ∨ id = 9 := by
    simp [Specification.after, bag, requestOf]
  simp only [live] at noneAbove least noneBelow greatest
  cases above with
  | none => exact absurd (noneAbove.mp rfl) (Set.Nonempty.ne_empty ⟨9, by decide⟩)
  | some next =>
      cases below with
      | none => exact absurd (noneBelow.mp rfl) (Set.Nonempty.ne_empty ⟨-3, by decide⟩)
      | some previous =>
          have isNine : next = 9 := by
            obtain ⟨rfl | rfl | rfl, larger⟩ := (least next rfl).1
            · exact absurd larger (by decide)
            · exact absurd larger (by decide)
            · rfl
          have isMinus : previous = -3 := by
            obtain ⟨rfl | rfl | rfl, smaller⟩ := (greatest previous rfl).1
            · exact absurd smaller (by decide)
            · rfl
            · exact absurd smaller (by decide)
          subst isNine isMinus
          exact ⟨_, state, dict', dict'', reached, runAbove, runBelow⟩

end M2Handler.Websocket.Session

import M2Handler.RedBlack.Tree

/-!
# Bounds of a key

A bound is the nearest value beyond a key on the way from one side of the tree to
the other.  The search remembers the last value beyond the key that it came by.
-/

namespace M2Handler.RedBlack

open RedBlack.Tree

variable {α β : Type*}

namespace Side

def Precedes [LT β] : Side → β → β → Prop
  | .left, first, second => first < second
  | .right, first, second => second < first

/-- What the comparison of a key with a value beyond it gives. -/
def ahead : Side → Ordering
  | .left => .lt
  | .right => .gt

section Order

variable [LinearOrder β] {side : Side} {first second third : β}

theorem not_precedes_self (side : Side) (value : β) : ¬ side.Precedes value value := by
  cases side <;> exact lt_irrefl value

theorem Precedes.asymm (before : side.Precedes first second) : ¬ side.Precedes second first := by
  cases side <;> exact lt_asymm before

/-- What is not behind the first, which is not behind the second, is not behind it. -/
theorem not_precedes_trans (before : ¬ side.Precedes second first)
    (after : ¬ side.Precedes third second) : ¬ side.Precedes third first := by
  cases side with
  | left => exact not_lt.mpr ((not_lt.mp before).trans (not_lt.mp after))
  | right => exact not_lt.mpr ((not_lt.mp after).trans (not_lt.mp before))

theorem eq_of_not_precedes (before : ¬ side.Precedes first second)
    (after : ¬ side.Precedes second first) : first = second := by
  cases side with
  | left => exact le_antisymm (not_lt.mp after) (not_lt.mp before)
  | right => exact le_antisymm (not_lt.mp before) (not_lt.mp after)

theorem cmp_eq_ahead_iff : cmp first second = side.ahead ↔ side.Precedes first second := by
  cases side with
  | left => exact cmp_eq_lt_iff first second
  | right => exact cmp_eq_gt_iff first second

end Order

end Side

/-! ## The search -/

namespace Tree

/-- The search of a bound from one side; a value that compares equal ends a search
that is not strict. -/
def bound (side : Side) (strict : Bool) (direction : α → Ordering) : Option α → Tree α → Option α
  | tentative, nil => tentative
  | tentative, node _ left value right =>
      if direction value = .eq ∧ strict = false then some value
      else if direction value = side.ahead then
        match side with
        | .left => bound side strict direction (some value) left
        | .right => bound side strict direction (some value) right
      else
        match side with
        | .left => bound side strict direction tentative right
        | .right => bound side strict direction tentative left

theorem bound_join (side : Side) (strict : Bool) (direction : α → Ordering) (tentative : Option α)
    (color : Color) (near far : Tree α) (value : α) :
    bound side strict direction tentative (join side color near value far) =
      if direction value = .eq ∧ strict = false then some value
      else if direction value = side.ahead then bound side strict direction (some value) near
      else bound side strict direction tentative far := by
  cases side <;> rfl

theorem mem_inorder_join {side : Side} {color : Color} {near far : Tree α} {value other : α} :
    other ∈ (join side color near value far).inorder ↔
      other ∈ near.inorder ∨ other = value ∨ other ∈ far.inorder := by
  cases side with
  | left => simp [join]
  | right =>
      simp only [join, inorder_node, List.mem_append, List.mem_cons]
      tauto

/-- A tree is the empty tree or a join seen from one side. -/
theorem join_induction (side : Side) {motive : Tree α → Prop} (empty : motive nil)
    (joined : ∀ color near value far, motive near → motive far →
      motive (join side color near value far)) (tree : Tree α) : motive tree := by
  induction tree with
  | nil => exact empty
  | node color left value right ihLeft ihRight =>
      cases side with
      | left => exact joined color left value right ihLeft ihRight
      | right => exact joined color right value left ihRight ihLeft

section Order

variable [LinearOrder β] {rank : α → β} {side : Side} {strict : Bool} {key : β}

/-- The values of the near subtree are not behind that of the node, nor those of the
far subtree before it. -/
theorem sorted_join {color : Color} {near far : Tree α} {value : α}
    (sorted : Sorted rank (join side color near value far)) :
    Sorted rank near ∧ Sorted rank far ∧
      (∀ other ∈ near.inorder, ¬ side.Precedes (rank value) (rank other)) ∧
      ∀ other ∈ far.inorder, ¬ side.Precedes (rank other) (rank value) := by
  cases side with
  | left =>
      obtain ⟨sortedNear, sortedFar, below, above, -⟩ := sorted_node.mp sorted
      exact ⟨sortedNear, sortedFar, fun other member => not_lt.mpr (below other member),
        fun other member => not_lt.mpr (above other member)⟩
  | right =>
      obtain ⟨sortedFar, sortedNear, below, above, -⟩ := sorted_node.mp sorted
      exact ⟨sortedNear, sortedFar, fun other member => not_lt.mpr (above other member),
        fun other member => not_lt.mpr (below other member)⟩

/-- A rank beyond the key, or the key itself if the bound is not strict. -/
def Beyond (side : Side) (strict : Bool) (key other : β) : Prop :=
  side.Precedes key other ∨ strict = false ∧ key = other

/-- Nothing lies beyond the key, or this is the nearest value that does. -/
def Nearest (side : Side) (strict : Bool) (rank : α → β) (key : β) (values : List α) :
    Option α → Prop
  | none => ∀ value ∈ values, ¬ Beyond side strict key (rank value)
  | some found => found ∈ values ∧ Beyond side strict key (rank found) ∧
      ∀ value ∈ values, Beyond side strict key (rank value) →
        ¬ side.Precedes (rank value) (rank found)

/-- What the search finds in a subtree, or keeps from above. -/
theorem bound_cases {tree : Tree α} (sorted : Sorted rank tree) {tentative : Option α}
    (above : ∀ value ∈ tentative, side.Precedes key (rank value) ∧
      ∀ other ∈ tree.inorder, ¬ side.Precedes (rank value) (rank other)) :
    (bound side strict (towards rank key) tentative tree = none ∧ tentative = none ∧
        ∀ value ∈ tree.inorder, ¬ Beyond side strict key (rank value)) ∨
      ∃ found, bound side strict (towards rank key) tentative tree = some found ∧
        (found ∈ tree.inorder ∨ tentative = some found) ∧ Beyond side strict key (rank found) ∧
        ∀ value ∈ tree.inorder, Beyond side strict key (rank value) →
          ¬ side.Precedes (rank value) (rank found) := by
  induction tree using join_induction side generalizing tentative with
  | empty =>
      cases tentative with
      | none => exact .inl ⟨rfl, rfl, fun value member => absurd member List.not_mem_nil⟩
      | some value =>
          exact .inr ⟨value, rfl, .inr rfl, .inl (above value rfl).1,
            fun other member => absurd member List.not_mem_nil⟩
  | joined color near value far ihNear ihFar =>
      obtain ⟨sortedNear, sortedFar, before, after⟩ := sorted_join sorted
      rw [bound_join]
      by_cases equal : towards rank key value = .eq ∧ strict = false
      · have same : key = rank value := (cmp_eq_eq_iff _ _).mp equal.1
        rw [if_pos equal]
        refine .inr ⟨value, rfl, .inl (mem_inorder_join.mpr (.inr (.inl rfl))),
          .inr ⟨equal.2, same⟩, fun other _ beyond => ?_⟩
        rw [← same]
        rcases beyond with behind | ⟨-, equal'⟩
        · exact behind.asymm
        · rw [← equal']
          exact Side.not_precedes_self side key
      · rw [if_neg equal]
        by_cases ahead : towards rank key value = side.ahead
        · have behind : side.Precedes key (rank value) := Side.cmp_eq_ahead_iff.mp ahead
          rw [if_pos ahead]
          have fromHere : ∀ other ∈ some value, side.Precedes key (rank other) ∧
              ∀ inner ∈ near.inorder, ¬ side.Precedes (rank other) (rank inner) := by
            rintro other ⟨⟩
            exact ⟨behind, before⟩
          obtain ⟨-, impossible, -⟩ | ⟨found, search, place, beyond, nearest⟩ :=
            ihNear sortedNear fromHere
          · cases impossible
          · have notBefore : ¬ side.Precedes (rank value) (rank found) := by
              rcases place with member | same
              · exact before found member
              · cases same
                exact Side.not_precedes_self side (rank value)
            refine .inr ⟨found, search, .inl ?_, beyond, fun other member beyond' => ?_⟩
            · rcases place with member | same
              · exact mem_inorder_join.mpr (.inl member)
              · cases same
                exact mem_inorder_join.mpr (.inr (.inl rfl))
            · rcases mem_inorder_join.mp member with inNear | rfl | inFar
              · exact nearest other inNear beyond'
              · exact notBefore
              · exact Side.not_precedes_trans notBefore (after other inFar)
        · have notBehind : ¬ side.Precedes key (rank value) := mt Side.cmp_eq_ahead_iff.mpr ahead
          rw [if_neg ahead]
          -- Neither the value nor the near subtree is beyond the key.
          have short : ¬ Beyond side strict key (rank value) := by
            rintro (behind | ⟨lax, same⟩)
            · exact notBehind behind
            · exact equal ⟨(cmp_eq_eq_iff _ _).mpr same, lax⟩
          have shortNear : ∀ other ∈ near.inorder, ¬ Beyond side strict key (rank other) := by
            intro other member
            have within := Side.not_precedes_trans (before other member) notBehind
            rintro (behind | ⟨lax, same⟩)
            · exact within behind
            · have notBefore := before other member
              rw [← same] at notBefore
              exact short (.inr ⟨lax, Side.eq_of_not_precedes notBehind notBefore⟩)
          have further : ∀ other ∈ tentative, side.Precedes key (rank other) ∧
              ∀ inner ∈ far.inorder, ¬ side.Precedes (rank other) (rank inner) :=
            fun other kept => ⟨(above other kept).1, fun inner member =>
              (above other kept).2 inner (mem_inorder_join.mpr (.inr (.inr member)))⟩
          obtain ⟨nothing, unset, shortFar⟩ | ⟨found, search, place, beyond, nearest⟩ :=
            ihFar sortedFar further
          · refine .inl ⟨nothing, unset, fun other member => ?_⟩
            rcases mem_inorder_join.mp member with inNear | rfl | inFar
            · exact shortNear other inNear
            · exact short
            · exact shortFar other inFar
          · refine .inr ⟨found, search, ?_, beyond, fun other member beyond' => ?_⟩
            · exact place.imp_left fun inFar => mem_inorder_join.mpr (.inr (.inr inFar))
            · rcases mem_inorder_join.mp member with inNear | rfl | inFar
              · exact absurd beyond' (shortNear other inNear)
              · exact absurd beyond' short
              · exact nearest other inFar beyond'

/-- In a sorted tree the search finds the nearest value beyond the key. -/
theorem bound_nearest {tree : Tree α} (sorted : Sorted rank tree) (side : Side) (strict : Bool)
    (key : β) :
    Nearest side strict rank key tree.inorder
      (bound side strict (towards rank key) none tree) := by
  obtain ⟨nothing, -, short⟩ | ⟨found, search, member | impossible, beyond, nearest⟩ :=
    @bound_cases _ _ _ rank side strict key tree sorted none fun value impossible => by
      cases impossible
  · rw [nothing]
    exact short
  · rw [search]
    exact ⟨member, beyond, nearest⟩
  · cases impossible

end Order

end Tree

end M2Handler.RedBlack

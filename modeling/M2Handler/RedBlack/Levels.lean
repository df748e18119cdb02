import M2Handler.RedBlack.Building

/-!
# The levels of a tree that is being built

What waits for its right half waits on a level of its own, above the leaves, and no
level is higher than that of the whole tree.  The values so far stand in their order.
-/

namespace M2Handler.RedBlack

open RedBlack.Tree

variable {α : Type*}

/-! ## The levels of what waits -/

/-- Nothing on its way up is lower than before, and what it passes is below it. -/
theorem mem_absorb (level : Nat) (tree : Tree α) (waiting : List (Waiting α)) :
    level ≤ (absorb level tree waiting).1 ∧
      ∀ other ∈ waiting, other ∈ (absorb level tree waiting).2.2 ∨
        other.level < (absorb level tree waiting).1 := by
  induction waiting generalizing level tree with
  | nil => exact ⟨Nat.le_refl _, fun _ member => absurd member List.not_mem_nil⟩
  | cons first others ih =>
      rw [absorb]
      by_cases same : first.level = level
      · obtain ⟨higher, passed⟩ := ih (level + 1) (first.over tree)
        rw [if_pos same]
        refine ⟨Nat.le_of_succ_le higher, fun other member => ?_⟩
        rcases List.mem_cons.mp member with rfl | member
        · exact .inr (same ▸ higher)
        · exact passed other member
      · rw [if_neg same]
        exact ⟨Nat.le_refl _, fun other member => .inl member⟩

/-- What waits after a finished tree went up waits above it. -/
theorem absorb_ascending {level : Nat} {waiting : List (Waiting α)}
    (ascending : waiting.Pairwise fun first second => first.level < second.level)
    (above : ∀ other ∈ waiting, level ≤ other.level) (tree : Tree α) :
    (absorb level tree waiting).2.2.Sublist waiting ∧
      ∀ other ∈ (absorb level tree waiting).2.2, (absorb level tree waiting).1 < other.level := by
  induction waiting generalizing level tree with
  | nil => exact ⟨.slnil, fun _ member => absurd member List.not_mem_nil⟩
  | cons first others ih =>
      obtain ⟨lowest, ascending'⟩ := List.pairwise_cons.mp ascending
      rw [absorb]
      by_cases same : first.level = level
      · rw [if_pos same]
        obtain ⟨sublist, higher⟩ := ih ascending'
          (fun other member => same ▸ lowest other member) (first.over tree)
        exact ⟨sublist.cons first, higher⟩
      · rw [if_neg same]
        have apart : level < first.level :=
          lt_of_le_of_ne (above first List.mem_cons_self) (Ne.symm same)
        refine ⟨List.Sublist.refl _, fun other member => ?_⟩
        rcases List.mem_cons.mp member with rfl | member
        · exact apart
        · exact apart.trans (lowest other member)

namespace Build

/-- No subtree is higher than a bound. -/
structure Within (build : Build α) (bound : Nat) : Prop where
  complete : build.complete ≠ none → build.level ≤ bound
  waiting : ∀ other ∈ build.waiting, other.level ≤ bound

theorem Within.mono {build : Build α} {bound bound' : Nat} (within : build.Within bound)
    (higher : bound ≤ bound') : build.Within bound' :=
  ⟨fun complete => (within.complete complete).trans higher,
    fun other member => (within.waiting other member).trans higher⟩

theorem Within.of_carry {build : Build α} {bound level : Nat} {tree : Tree α}
    {waiting : List (Waiting α)} (within : (build.carry level tree waiting).Within bound) :
    level ≤ bound ∧ ∀ other ∈ waiting, other.level ≤ bound := by
  obtain ⟨higher, passed⟩ := mem_absorb level tree waiting
  have top := within.complete (by simp)
  refine ⟨higher.trans top, fun other member => ?_⟩
  rcases passed other member with kept | below
  · exact within.waiting other kept
  · exact (Nat.le_of_lt below).trans top

theorem Within.of_raise {build : Build α} {bound : Nat} (incomplete : build.complete = none)
    (within : build.raise.Within bound) : build.Within bound := by
  refine ⟨fun complete => absurd incomplete complete, fun other member => ?_⟩
  rw [raise] at within
  cases waiting : build.waiting with
  | nil => simp [waiting] at member
  | cons first others =>
      rw [waiting] at within member
      by_cases lowest : first.level = 0
      · simp only [if_pos lowest] at within
        rcases List.mem_cons.mp member with rfl | member
        · omega
        · exact within.of_carry.2 other member
      · simp only [if_neg lowest] at within
        exact within.waiting other (waiting ▸ member)

theorem Within.of_place {build : Build α} {bound : Nat} {value : α}
    (within : (build.place value).Within bound) : build.Within bound := by
  cases complete : build.complete with
  | some tree =>
      rw [place_complete complete] at within
      exact ⟨fun _ => within.waiting _ List.mem_cons_self,
        fun other member => within.waiting other (List.mem_cons_of_mem _ member)⟩
  | none =>
      rw [place_incomplete complete] at within
      exact ⟨fun some_tree => absurd complete some_tree, within.of_carry.2⟩

theorem Within.of_push {build : Build α} {bound : Nat} {value : α}
    (within : (build.push value).Within bound) : build.Within bound := by
  have claimed : build.claim.Within bound := within.of_place
  cases complete : build.complete with
  | some tree => rwa [claim_complete complete] at claimed
  | none =>
      rw [claim_incomplete complete] at claimed
      by_cases full : build.base = 0 ∧ build.bottom = 0
      · rw [if_pos full] at claimed
        exact claimed.of_raise complete
      · rw [if_neg full] at claimed
        exact ⟨claimed.complete, claimed.waiting⟩

theorem Within.of_foldl {build : Build α} {bound : Nat} (values : List α)
    (within : (values.foldl push build).Within bound) : build.Within bound := by
  induction values generalizing build with
  | nil => exact within
  | cons value values ih => exact (ih within).of_push

/-- What waits is above the leaves, and each on a level of its own. -/
structure Stacked (build : Build α) : Prop where
  ascending : build.waiting.Pairwise fun first second => first.level < second.level
  grounded : ∀ other ∈ build.waiting, build.base ≤ other.level
  below : build.complete ≠ none →
    build.base ≤ build.level ∧ ∀ other ∈ build.waiting, build.level < other.level
  leveled : build.complete = none → build.level = build.base

theorem stacked_start (bottom : Nat) : (start bottom : Build α).Stacked where
  ascending := .nil
  grounded := fun _ member => absurd member List.not_mem_nil
  below := fun complete => absurd rfl complete
  leveled := fun _ => rfl

theorem stacked_carry {build : Build α} {level : Nat} {tree : Tree α} {waiting : List (Waiting α)}
    (ascending : waiting.Pairwise fun first second => first.level < second.level)
    (above : ∀ other ∈ waiting, level ≤ other.level) (lowest : build.base ≤ level) :
    (build.carry level tree waiting).Stacked := by
  obtain ⟨sublist, higher⟩ := absorb_ascending ascending above tree
  refine ⟨ascending.sublist sublist, fun other member => ?_, fun _ => ⟨?_, higher⟩, fun none_ => ?_⟩
  · exact lowest.trans (above other (sublist.subset member))
  · exact lowest.trans (mem_absorb level tree waiting).1
  · rw [carry_complete] at none_
    cases none_

theorem Stacked.raise {build : Build α} (stacked : build.Stacked)
    (incomplete : build.complete = none) : build.raise.Stacked := by
  obtain ⟨ascending, grounded, -, -⟩ := stacked
  rw [Build.raise]
  cases waiting : build.waiting with
  | nil =>
      refine ⟨?_, ?_, fun complete => absurd incomplete complete, fun _ => rfl⟩
      · simp
      · simp
  | cons first others =>
      rw [waiting] at ascending
      obtain ⟨lower, others_ascending⟩ := List.pairwise_cons.mp ascending
      by_cases lowest : first.level = 0
      · simp only [if_pos lowest]
        exact stacked_carry others_ascending
          (fun other member => Nat.zero_lt_of_lt (lower other member)) (Nat.le_refl _)
      · simp only [if_neg lowest]
        refine ⟨ascending, fun other member => ?_, fun complete => absurd incomplete complete,
          fun _ => rfl⟩
        have positive : 0 < first.level := Nat.pos_of_ne_zero lowest
        rcases List.mem_cons.mp member with rfl | member
        · exact positive
        · exact positive.trans (lower other member)

theorem Stacked.place {build : Build α} (stacked : build.Stacked) (value : α) :
    (build.place value).Stacked := by
  obtain ⟨ascending, grounded, below, -⟩ := stacked
  cases complete : build.complete with
  | none =>
      rw [place_incomplete complete]
      exact stacked_carry ascending grounded (Nat.le_refl _)
  | some tree =>
      rw [place_complete complete]
      obtain ⟨lowest, above⟩ := below (by simp [complete])
      refine ⟨List.pairwise_cons.mpr ⟨above, ascending⟩, fun other member => ?_,
        fun some_tree => absurd rfl some_tree, fun _ => rfl⟩
      rcases List.mem_cons.mp member with rfl | member
      · exact lowest
      · exact grounded other member

theorem Stacked.claim {build : Build α} (stacked : build.Stacked) : build.claim.Stacked := by
  cases complete : build.complete with
  | some tree => rwa [claim_complete complete]
  | none =>
      rw [claim_incomplete complete]
      by_cases full : build.base = 0 ∧ build.bottom = 0
      · rw [if_pos full]
        exact stacked.raise complete
      · rw [if_neg full]
        exact ⟨stacked.ascending, stacked.grounded, stacked.below, stacked.leveled⟩

/-! ## The values so far -/

def spine : List (Waiting α) → List α
  | [] => []
  | first :: others => spine others ++ (first.left.inorder ++ [first.value])

def inorder (build : Build α) : List α :=
  spine build.waiting ++ (build.complete.getD nil).inorder

theorem spine_absorb (level : Nat) (tree : Tree α) (waiting : List (Waiting α)) :
    spine (absorb level tree waiting).2.2 ++ (absorb level tree waiting).2.1.inorder =
      spine waiting ++ tree.inorder := by
  induction waiting generalizing level tree with
  | nil => rfl
  | cons first others ih =>
      rw [absorb]
      by_cases same : first.level = level
      · rw [if_pos same, ih, Waiting.over, inorder_node, spine]
        simp
      · rw [if_neg same]

@[simp] theorem inorder_carry (build : Build α) (level : Nat) (tree : Tree α)
    (waiting : List (Waiting α)) :
    (build.carry level tree waiting).inorder = spine waiting ++ tree.inorder :=
  spine_absorb level tree waiting

theorem inorder_raise {build : Build α} (incomplete : build.complete = none) :
    build.raise.inorder = build.inorder := by
  rw [raise]
  cases waiting : build.waiting with
  | nil => simp [inorder, waiting]
  | cons first others =>
      by_cases lowest : first.level = 0
      · simp only [if_pos lowest, inorder_carry]
        simp [inorder, waiting, incomplete, spine, Waiting.over]
      · simp [lowest, inorder, waiting]

theorem inorder_claim (build : Build α) : build.claim.inorder = build.inorder := by
  cases complete : build.complete with
  | some tree => rw [claim_complete complete]
  | none =>
      rw [claim_incomplete complete]
      by_cases full : build.base = 0 ∧ build.bottom = 0
      · rw [if_pos full, inorder_raise complete]
      · rw [if_neg full]
        rfl

theorem inorder_place (build : Build α) (value : α) :
    (build.place value).inorder = build.inorder ++ [value] := by
  cases complete : build.complete with
  | none =>
      rw [place_incomplete complete, inorder_carry]
      simp [inorder, complete]
  | some tree =>
      rw [place_complete complete]
      simp [inorder, complete, spine]

theorem inorder_foldl_push (build : Build α) (values : List α) :
    (values.foldl push build).inorder = build.inorder ++ values := by
  induction values generalizing build with
  | nil => rw [List.foldl_nil, List.append_nil]
  | cons value values ih =>
      rw [List.foldl_cons, ih, push, inorder_place, inorder_claim, List.append_assoc]
      rfl

theorem inorder_foldl_over (waiting : List (Waiting α)) (tree : Tree α) :
    (waiting.foldl (fun tree waiting => waiting.over tree) tree).inorder =
      spine waiting ++ tree.inorder := by
  induction waiting generalizing tree with
  | nil => rfl
  | cons first others ih =>
      rw [List.foldl_cons, ih, spine, Waiting.over, inorder_node]
      simp

theorem inorder_finish (build : Build α) : build.finish.inorder = build.inorder := by
  rw [finish, inorder_paint, inorder_foldl_over]
  rfl

end Build

theorem inorder_buildTree (values : List α) : (buildTree values).inorder = values := by
  rw [buildTree, Build.inorder_finish, Build.inorder_foldl_push]
  rfl

/-- No subtree gets higher than the whole tree. -/
theorem within_start {values first second : List α} (split : values = first ++ second) :
    (first.foldl Build.push (.start (bottomRow values.length))).Within
      (values.length.size - 1) := by
  refine Build.Within.of_foldl second ?_
  rw [← List.foldl_append, ← split]
  by_cases nonempty : values = []
  · rw [nonempty]
    exact ⟨fun complete => absurd rfl complete, fun _ member => absurd member List.not_mem_nil⟩
  · obtain ⟨tree, -, -, run_eq⟩ := run_start nonempty
    have settled : ((Build.start (bottomRow values.length)).run values).Within
        (values.length.size - 1) := by
      rw [run_eq]
      exact ⟨fun _ => Nat.le_refl _, fun _ member => absurd member List.not_mem_nil⟩
    rw [Build.run, Build.settle] at settled
    by_cases exhausted : (values.foldl Build.push (.start (bottomRow values.length))).Exhausted
    · rw [if_pos exhausted] at settled
      exact settled.of_raise exhausted.1
    · rwa [if_neg exhausted] at settled

end M2Handler.RedBlack

import M2Handler.Adt.Traversal
import M2Handler.RedBlack.Bound

/-!
# Bounds

The four functions that look for the node nearest to a key are one loop with a side
and a strictness, which searches the tree for a bound and does not change it.
-/

namespace M2Handler.Adt

open M2Handler.Machine M2Handler.RedBlack M2Handler.RedBlack.Tree

variable {κ : Type}

/-! ## The functions -/

/-- The result of a comparison sends the search on towards the side. -/
def isAhead : Side → Int → Bool
  | .left, result => result < 0
  | .right, result => result > 0

def boundLoop (compare : κ → κ → Int) (key : κ) (side : Side) (strict : Bool) :
    Nat → Pointer → Pointer → DictM κ Pointer
  | 0, _, _ => diverge
  | fuel + 1, root, tentative =>
      if root = .nil then pure tentative
      else do
        let rootKey ← loadKey root
        let result := compare key rootKey
        -- `!dict->dupes` holds in every dictionary of the model.
        if result = 0 ∧ strict = false then pure root
        else if isAhead side result then
          let below ← load root (Dnode.child side)
          boundLoop compare key side strict fuel below root
        else
          let below ← load root (Dnode.child side.other)
          boundLoop compare key side strict fuel below tentative

def dictBound (compare : κ → κ → Int) (key : κ) (side : Side) (strict : Bool) :
    DictM κ Pointer := do
  let root ← dictRoot
  let fuel ← steps
  boundLoop compare key side strict fuel root .null

def dictLowerBound (compare : κ → κ → Int) (key : κ) : DictM κ Pointer :=
  dictBound compare key .left false

def dictUpperBound (compare : κ → κ → Int) (key : κ) : DictM κ Pointer :=
  dictBound compare key .right false

def dictStrictLowerBound (compare : κ → κ → Int) (key : κ) : DictM κ Pointer :=
  dictBound compare key .left true

def dictStrictUpperBound (compare : κ → κ → Int) (key : κ) : DictM κ Pointer :=
  dictBound compare key .right true

/-! ## The search -/

theorem heading_eq_iff (result : Int) : heading result = .eq ↔ result = 0 := by
  unfold heading
  split
  · simp
    omega
  · split
    · simp
      omega
    · simp
      omega

theorem heading_ahead_iff (side : Side) (result : Int) :
    heading result = side.ahead ↔ isAhead side result = true := by
  unfold heading
  cases side with
  | left =>
      rw [isAhead, decide_eq_true_iff, Side.ahead]
      split
      · simp_all
      · split <;> simp_all
  | right =>
      rw [isAhead, decide_eq_true_iff, Side.ahead]
      split
      · simp
        omega
      · split <;> simp_all

theorem length_inorder_join {α : Type} (side : Side) (color : Color)
    (near far : RedBlack.Tree α) (value : α) :
    (join side color near value far).inorder.length =
      near.inorder.length + far.inorder.length + 1 := by
  cases side with
  | left =>
      simp [join]
      omega
  | right =>
      simp [join]
      omega

theorem rewrites_boundLoop (compare : κ → κ → Int) (key : κ) (side : Side) (strict : Bool)
    {fuel : Nat} {tree : RedBlack.Tree (Nat × κ)} (path : List (Frame (Nat × κ)))
    (tentative : Option (Nat × κ)) (enough : tree.inorder.length < fuel) :
    Rewrites (boundLoop compare key side strict fuel (address tree) (pointerTo tentative))
      (plug path tree)
      (pointerTo (bound side strict (fun entry => heading (compare key entry.2)) tentative tree))
      (plug path tree) := by
  obtain ⟨fuel, rfl⟩ : ∃ less, fuel = less + 1 := ⟨fuel - 1, by omega⟩
  induction tree using join_induction side generalizing fuel path tentative with
  | empty => exact rewrites_pure _ _
  | joined color near entry far ihNear ihFar =>
      rw [length_inorder_join] at enough
      obtain ⟨fuel, rfl⟩ : ∃ less, fuel = less + 1 := ⟨fuel - 1, by omega⟩
      have stop : Pointer.node entry.1 ≠ .nil := Pointer.node_ne_nil _
      rw [address_join, bound_join]
      unfold boundLoop
      rw [if_neg stop]
      refine (rewrites_loadKey path side color near far entry).bind ?_
      simp only [heading_eq_iff, heading_ahead_iff]
      by_cases found : compare key entry.2 = 0 ∧ strict = false
      · rw [if_pos found, if_pos found]
        exact rewrites_pure _ _
      · rw [if_neg found, if_neg found]
        by_cases further : isAhead side (compare key entry.2) = true
        · rw [if_pos further, if_pos further]
          refine (rewrites_load path side color near far entry (Dnode.child side)).bind ?_
          rw [child_linked]
          exact ihNear (⟨side, color, entry, far⟩ :: path) (some entry) fuel (by omega)
        · rw [if_neg further, if_neg further]
          refine (rewrites_load path side color near far entry (Dnode.child side.other)).bind ?_
          rw [child_other_linked, ← join_other]
          exact ihFar (⟨side.other, color, entry, near⟩ :: path) tentative fuel (by omega)

/-- The four functions search the tree for a bound. -/
theorem rewrites_dictBound (compare : κ → κ → Int) (key : κ) (side : Side) (strict : Bool)
    (tree : RedBlack.Tree (Nat × κ)) :
    Rewrites (dictBound compare key side strict) tree
      (pointerTo (bound side strict (fun entry => heading (compare key entry.2)) none tree))
      tree := by
  unfold dictBound
  refine (rewrites_dictRoot tree).bind (rewrites_steps fun fuel enough => ?_)
  exact rewrites_boundLoop compare key side strict [] none enough

end M2Handler.Adt

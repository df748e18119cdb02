import M2Handler.RedBlack.Balance

/-!
# Insertion and removal

An insertion puts a red node at the end of a descent.  A removal closes the gap
of a node with at most one child, and fills the gap of any other node with its
successor, which takes over its colour.
-/

namespace M2Handler.RedBlack

open RedBlack.Tree

variable {α β : Type*}

/-! ## Insertion -/

def insert (below : α → Bool) (value : α) (tree : Tree α) : Tree α :=
  insertFixup (descend below tree []) (node .red nil value nil)

theorem isRedBlack_insert {tree : Tree α} (redBlack : IsRedBlack tree) (below : α → Bool)
    (value : α) : IsRedBlack (insert below value tree) := by
  have gap : IsRedBlack (plug (descend below tree []) nil) := by
    rw [plug_descend]; exact redBlack
  obtain ⟨height, fits, empty, -⟩ := isRedBlack_plug_iff.mp gap
  rw [balanced_nil_iff.mp empty] at fits
  exact isRedBlack_insertFixup fits (.red .nil .nil rfl rfl) rfl

theorem inorder_insert_perm (below : α → Bool) (value : α) (tree : Tree α) :
    (insert below value tree).inorder.Perm (value :: tree.inorder) := by
  have whole : tree.inorder =
      before (descend below tree []) ++ after (descend below tree []) := by
    have := inorder_plug (descend below tree []) nil
    rwa [plug_descend, plug_nil, inorder_nil, List.append_nil] at this
  rw [insert, inorder_insertFixup, inorder_plug, whole]
  simp

theorem sorted_insert [LinearOrder β] {rank : α → β} {tree : Tree α} (sorted : Sorted rank tree)
    (value : α) : Sorted rank (insert (fun other => rank value < rank other) value tree) := by
  rw [Sorted, insert, inorder_insertFixup]
  exact sorted_plug_descend sorted .red value

/-! ## Removal -/

structure First (α : Type*) where
  path : List (Frame α)
  color : Color
  value : α
  right : Tree α

def first (path : List (Frame α)) : Color → Tree α → α → Tree α → First α
  | color, nil, value, right => ⟨path, color, value, right⟩
  | color, node inner left middle right, value, far =>
      first (⟨.left, color, value, far⟩ :: path) inner left middle right

theorem plug_first (path : List (Frame α)) (color : Color) (left : Tree α) (value : α)
    (right : Tree α) :
    plug (first path color left value right).path
        (node (first path color left value right).color nil
          (first path color left value right).value (first path color left value right).right) =
      plug path (node color left value right) := by
  induction left generalizing path color value right with
  | nil => rfl
  | node inner left middle near ih => exact ih _ _ _ _

/-- Nothing precedes the first node. -/
theorem before_first (path : List (Frame α)) (color : Color) (left : Tree α) (value : α)
    (right : Tree α) : before (first path color left value right).path = before path := by
  induction left generalizing path color value right with
  | nil => rfl
  | node inner left middle near ih => exact (ih _ _ _ _).trans (by simp [before])

/-- The place where a node has been taken out above its only subtree. -/
structure Gap (α : Type*) where
  path : List (Frame α)
  color : Color
  only : Tree α

/-- The gap that a node leaves: at its own place when it has one subtree at most,
and else at the place of its successor, which takes over the node's. -/
def gap (path : List (Frame α)) (color : Color) : Tree α → Tree α → Gap α
  | left, nil => ⟨path, color, left⟩
  | nil, right => ⟨path, color, right⟩
  | left, node inner near middle far =>
      let next := first [] inner near middle far
      ⟨next.path ++ ⟨.right, color, next.value, left⟩ :: path, next.color, next.right⟩

theorem gap_successor (path : List (Frame α)) (color inner : Color) {left : Tree α}
    (near far : Tree α) (middle : α) (nonempty : left ≠ nil) :
    gap path color left (node inner near middle far) =
      ⟨(first [] inner near middle far).path ++
          ⟨.right, color, (first [] inner near middle far).value, left⟩ :: path,
        (first [] inner near middle far).color, (first [] inner near middle far).right⟩ := by
  cases left with
  | nil => exact absurd rfl nonempty
  | node => rfl

/-- Closing a gap: a black node leaves the paths through the gap short. -/
def close (path : List (Frame α)) : Color → Tree α → Tree α
  | .red, only => plug path only
  | .black, only => deleteFixup path only

def remove (path : List (Frame α)) (color : Color) (left right : Tree α) : Tree α :=
  close (gap path color left right).path (gap path color left right).color
    (gap path color left right).only

theorem inorder_close (path : List (Frame α)) (color : Color) (only : Tree α) :
    (close path color only).inorder = before path ++ only.inorder ++ after path := by
  cases color
  · exact inorder_plug path only
  · rw [close, inorder_deleteFixup, inorder_plug]

/-- A gap can be closed where a node with one subtree at most has been. -/
theorem isRedBlack_close {path : List (Frame α)} (side : Side) {color : Color} {value : α}
    {only : Tree α} (redBlack : IsRedBlack (plug path (join side color only value nil))) :
    IsRedBlack (close path color only) := by
  obtain ⟨height, fits, balanced, -⟩ := isRedBlack_plug_iff.mp redBlack
  cases color with
  | red =>
      obtain ⟨balancedOnly, -, isBlack, -⟩ := balanced_red_iff.mp balanced
      exact isRedBlack_plug _ fits balancedOnly isBlack
  | black =>
      obtain ⟨below, rfl⟩ := balanced.pos_of_black
      obtain ⟨balancedOnly, -⟩ := balanced_black_iff.mp balanced
      exact isRedBlack_deleteFixup fits balancedOnly.short

/-- Another value at a node makes no difference to the balance. -/
theorem isRedBlack_replace {path : List (Frame α)} {color : Color} {left right : Tree α}
    {value : α} (other : α) (redBlack : IsRedBlack (plug path (node color left value right))) :
    IsRedBlack (plug path (node color left other right)) := by
  obtain ⟨height, fits, balanced, admits⟩ := isRedBlack_plug_iff.mp redBlack
  refine isRedBlack_plug_iff.mpr ⟨height, fits, ?_, admits⟩
  cases balanced with
  | red near far blackNear blackFar => exact .red near far blackNear blackFar
  | black near far => exact .black near far

/-- The path to the successor of a node, once the successor's value stands at the
node itself. -/
theorem plug_successor (path : List (Frame α)) (color inner : Color) (left near far : Tree α)
    (middle : α) :
    plug ((first [] inner near middle far).path ++
          ⟨.right, color, (first [] inner near middle far).value, left⟩ :: path)
        (node (first [] inner near middle far).color nil
          (first [] inner near middle far).value (first [] inner near middle far).right) =
      plug path (node color left (first [] inner near middle far).value
        (node inner near middle far)) := by
  rw [plug_append, plug_first]
  rfl

/-- A gap is below a balanced path, as if its node were still there. -/
theorem isRedBlack_gap {path : List (Frame α)} {color : Color} {left right : Tree α} {value : α}
    (redBlack : IsRedBlack (plug path (node color left value right))) :
    ∃ side value, IsRedBlack (plug (gap path color left right).path
      (join side (gap path color left right).color (gap path color left right).only value nil)) := by
  cases right with
  | nil => cases left <;> exact ⟨.left, value, redBlack⟩
  | node inner near middle far =>
      cases left with
      | nil => exact ⟨.right, value, redBlack⟩
      | node =>
          have moved := isRedBlack_replace (first [] inner near middle far).value redBlack
          rw [← plug_successor] at moved
          exact ⟨.right, _, moved⟩

theorem isRedBlack_remove {path : List (Frame α)} {color : Color} {left right : Tree α} {value : α}
    (redBlack : IsRedBlack (plug path (node color left value right))) :
    IsRedBlack (remove path color left right) := by
  obtain ⟨side, other, balanced⟩ := isRedBlack_gap redBlack
  exact isRedBlack_close side balanced

/-- A removal takes away the value of the node and no other. -/
theorem inorder_remove (path : List (Frame α)) (color : Color) (left right : Tree α) :
    (remove path color left right).inorder =
      before path ++ (left.inorder ++ right.inorder) ++ after path := by
  cases right with
  | nil => cases left <;> simp [remove, gap, inorder_close]
  | node inner near middle far =>
      cases left with
      | nil => simp [remove, gap, inorder_close]
      | node =>
          have rest := congrArg (fun tree => tree.inorder ++ after path)
            (plug_first [] inner near middle far)
          simp only [inorder_plug, before_first] at rest
          simp only [remove, gap, inorder_close, before_append, after_append, before_first]
          simp only [before, after, inorder_node, inorder_nil, List.append_assoc,
            List.cons_append, List.nil_append, List.append_nil] at rest ⊢
          rw [rest]

/-- The tree around the gap that a node leaves. -/
theorem inorder_gap (path : List (Frame α)) (color : Color) (left right : Tree α) :
    (plug (gap path color left right).path (gap path color left right).only).inorder =
      before path ++ (left.inorder ++ right.inorder) ++ after path := by
  rw [inorder_plug, ← inorder_close _ (gap path color left right).color]
  exact inorder_remove path color left right

end M2Handler.RedBlack

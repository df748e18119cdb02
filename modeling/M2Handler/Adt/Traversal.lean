import M2Handler.Adt.Rewriting

/-!
# Lookup and traversal

A lookup is a binary search of the tree, and the successor of a node is the next
entry in the order of the tree.  Neither changes the dictionary.
-/

namespace M2Handler.Adt

open M2Handler.Machine M2Handler.RedBlack M2Handler.RedBlack.Tree

variable {κ : Type}

def pointerTo : Option (Nat × κ) → Pointer
  | none => .null
  | some entry => .node entry.1

/-! ## Lookup -/

/-- The direction a comparison sends a search. -/
def heading (result : Int) : Ordering :=
  if result < 0 then .lt else if result > 0 then .gt else .eq

theorem rewrites_lookupLoop (compare : κ → κ → Int) (key : κ) {fuel : Nat}
    {tree : RedBlack.Tree (Nat × κ)} (path : List (Frame (Nat × κ)))
    (enough : tree.inorder.length < fuel) :
    Rewrites (lookupLoop compare key fuel (address tree)) (plug path tree)
      (pointerTo (find (fun entry => heading (compare key entry.2)) tree)) (plug path tree) := by
  obtain ⟨fuel, rfl⟩ : ∃ less, fuel = less + 1 := ⟨fuel - 1, by omega⟩
  induction tree generalizing fuel path with
  | nil => exact rewrites_pure _ _
  | node color left entry right ihLeft ihRight =>
      simp only [inorder_node, List.length_append, List.length_cons] at enough
      obtain ⟨fuel, rfl⟩ : ∃ less, fuel = less + 1 := ⟨fuel - 1, by omega⟩
      have stop : address (.node color left entry right) ≠ .nil := Pointer.node_ne_nil _
      unfold lookupLoop
      rw [if_neg stop, find]
      refine (rewrites_loadKey path .left color left right entry).bind ?_
      dsimp only
      by_cases smaller : compare key entry.2 < 0
      · rw [if_pos smaller, show heading (compare key entry.2) = .lt from if_pos smaller]
        refine (rewrites_load path .left color left right entry Dnode.left).bind ?_
        exact ihLeft (⟨.left, color, entry, right⟩ :: path) fuel (by omega)
      · by_cases larger : compare key entry.2 > 0
        · rw [if_neg smaller, if_pos larger, show heading (compare key entry.2) = .gt by
            rw [heading, if_neg smaller, if_pos larger]]
          refine (rewrites_load path .left color left right entry Dnode.right).bind ?_
          exact ihRight (⟨.right, color, entry, left⟩ :: path) fuel (by omega)
        · rw [if_neg smaller, if_neg larger, show heading (compare key entry.2) = .eq by
            rw [heading, if_neg smaller, if_neg larger]]
          exact rewrites_pure _ _

/-- `dict_lookup` is a binary search. -/
theorem rewrites_dictLookup (compare : κ → κ → Int) (key : κ) (tree : RedBlack.Tree (Nat × κ)) :
    Rewrites (dictLookup compare key) tree
      (pointerTo (find (fun entry => heading (compare key entry.2)) tree)) tree := by
  unfold dictLookup
  refine (rewrites_dictRoot tree).bind (rewrites_steps fun fuel enough => ?_)
  exact rewrites_lookupLoop compare key [] enough

/-! ## Traversal -/

/-- The first node of a subtree comes first in its order. -/
theorem head_first {α : Type} (path : List (Frame α)) (color : Color) (left : RedBlack.Tree α)
    (value : α) (right : RedBlack.Tree α) (rest : List α) :
    ((RedBlack.Tree.node color left value right).inorder ++ rest).head? =
      some (first path color left value right).value := by
  induction left generalizing path color value right rest with
  | nil => rfl
  | node inner near middle far ihNear ihFar =>
      rw [first, ← ihNear (⟨.left, color, value, right⟩ :: path) inner middle far
        (value :: right.inorder ++ rest)]
      simp

/-- Going left as far as possible ends at the first node. -/
theorem rewrites_leftmostLoop (path : List (Frame (Nat × κ))) (color : Color)
    (left right : RedBlack.Tree (Nat × κ)) (entry : Nat × κ) {fuel : Nat}
    (enough : left.inorder.length < fuel) :
    Rewrites (leftmostLoop fuel (.node entry.1)) (plug path (.node color left entry right))
      (.node (first path color left entry right).value.1)
      (plug path (.node color left entry right)) := by
  obtain ⟨fuel, rfl⟩ : ∃ less, fuel = less + 1 := ⟨fuel - 1, by omega⟩
  induction left generalizing path color entry right fuel with
  | nil =>
      unfold leftmostLoop
      refine (rewrites_load path .left color .nil right entry Dnode.left).bind ?_
      exact rewrites_pure _ _
  | node inner near middle far ihNear ihFar =>
      simp only [inorder_node, List.length_append, List.length_cons] at enough
      obtain ⟨fuel, rfl⟩ : ∃ less, fuel = less + 1 := ⟨fuel - 1, by omega⟩
      unfold leftmostLoop
      refine (rewrites_load path .left color _ right entry Dnode.left).bind ?_
      exact ihNear (⟨.left, color, entry, right⟩ :: path) inner far middle fuel (by omega)

/-- `dict_first` is the first entry in order. -/
theorem rewrites_dictFirst (tree : RedBlack.Tree (Nat × κ)) :
    Rewrites dictFirst tree (pointerTo tree.inorder.head?) tree := by
  unfold dictFirst
  refine (rewrites_dictRoot tree).bind (rewrites_steps fun fuel enough => ?_)
  cases tree with
  | nil => exact rewrites_pure _ _
  | node color left entry right =>
      have stop : address (.node color left entry right) ≠ .nil := Pointer.node_ne_nil _
      rw [if_neg stop, ← List.append_nil (RedBlack.Tree.node color left entry right).inorder,
        head_first [] color]
      simp only [inorder_node, List.length_append, List.length_cons] at enough
      exact rewrites_leftmostLoop [] color left right entry (by omega)

/-- Climbing ends at the first entry after a subtree, or at the sentinel. -/
theorem rewrites_climbLoop {path : List (Frame (Nat × κ))} {tree : RedBlack.Tree (Nat × κ)}
    {fuel : Nat}
    (nonempty : tree ≠ .nil) (distinct : (addresses (plug path tree)).Nodup)
    (enough : path.length < fuel) :
    Rewrites (climbLoop fuel (address tree) (above path)) (plug path tree)
      (((after path).head?.map fun entry => Pointer.node entry.1).getD .nil)
      (plug path tree) := by
  obtain ⟨fuel, rfl⟩ : ∃ less, fuel = less + 1 := ⟨fuel - 1, by omega⟩
  induction path generalizing fuel tree with
  | nil => exact rewrites_pure _ _
  | cons frame path ih =>
      obtain ⟨side, color, entry, sibling⟩ := frame
      have atParent {β : Type} (field : Dnode κ → β) := rewrites_load path side color tree sibling
        entry field
      have stop : above (⟨side, color, entry, sibling⟩ :: path) ≠ .nil := Pointer.node_ne_nil _
      simp only [List.length_cons] at enough
      obtain ⟨fuel, rfl⟩ : ∃ less, fuel = less + 1 := ⟨fuel - 1, by omega⟩
      unfold climbLoop
      rw [if_neg stop]
      refine (atParent Dnode.right).bind ?_
      cases side with
      | left =>
          rw [plug_cons, nodup_addresses_plug, Frame.fill, ← join_other] at distinct
          have apart : address tree ≠ address sibling :=
            (address_ne_address distinct.1 nonempty).symm
          rw [Dnode.linked, if_neg apart]
          exact rewrites_pure _ _
      | right =>
          rw [Dnode.linked, if_pos rfl]
          refine (atParent Dnode.parent).bind ?_
          exact ih (join_ne_nil .right color tree sibling entry) distinct fuel (by omega)

/-- `dict_next` is the next entry in order. -/
theorem rewrites_dictNext (path : List (Frame (Nat × κ))) (color : Color)
    (left right : RedBlack.Tree (Nat × κ)) (entry : Nat × κ)
    (distinct : (addresses (plug path (.node color left entry right))).Nodup) :
    Rewrites (dictNext (.node entry.1)) (plug path (.node color left entry right))
      (pointerTo (right.inorder ++ after path).head?)
      (plug path (.node color left entry right)) := by
  unfold dictNext
  refine (rewrites_load path .left color left right entry Dnode.right).bind
    (rewrites_steps fun fuel enough => ?_)
  have size : path.length + (RedBlack.Tree.node color left entry right).inorder.length ≤
      (plug path (join .left color left entry right)).inorder.length :=
    length_le_inorder_plug path (.node color left entry right)
  simp only [inorder_node, List.length_append, List.length_cons] at size
  cases right with
  | nil =>
      rw [if_neg (by simp [Dnode.linked, address])]
      refine (rewrites_load path .left color left .nil entry Dnode.parent).bind ?_
      rw [parent_linked]
      refine (rewrites_climbLoop (join_ne_nil .left _ _ _ _) distinct (by omega)).bind ?_
      rw [inorder_nil, List.nil_append]
      cases (after path).head? <;> exact rewrites_pure _ _
  | node inner near middle far =>
      rw [if_pos (by simp [Dnode.linked, address])]
      rw [head_first (⟨.right, color, entry, left⟩ :: path)]
      simp only [inorder_node, List.length_append, List.length_cons] at size
      exact rewrites_leftmostLoop (⟨.right, color, entry, left⟩ :: path) inner near far middle
        (by omega)

end M2Handler.Adt

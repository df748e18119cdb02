import Mathlib

/-!
# Coloured binary trees and the paths into them

A tree is seen from one of its subtrees: the path to the root is the list of
frames passed on the way up, innermost first.  Every mirrored pair of cases is
one case that names a side.  An order enters only through a rank of the values,
and two values may share a rank.
-/

namespace M2Handler.RedBlack

inductive Side where
  | left
  | right
  deriving DecidableEq, Repr

namespace Side

def other : Side → Side
  | left => right
  | right => left

@[simp] theorem other_left : left.other = right :=
  rfl

@[simp] theorem other_right : right.other = left :=
  rfl

@[simp] theorem other_other (side : Side) : side.other.other = side := by
  cases side <;> rfl

@[simp] theorem other_ne (side : Side) : side.other ≠ side := by
  cases side <;> decide

/-- A side that is not the given one is its mirror image. -/
theorem eq_other_of_ne {side opposite : Side} (different : side ≠ opposite) :
    side = opposite.other := by
  cases side <;> cases opposite <;> first | rfl | exact absurd rfl different

end Side

inductive Color where
  | red
  | black
  deriving DecidableEq, Repr

namespace Color

/-- A colour that is not red is black. -/
theorem eq_black {color : Color} (other : color ≠ .red) : color = .black := by
  cases color
  · exact absurd rfl other
  · rfl

end Color

inductive Tree (α : Type*) where
  | nil
  | node (color : Color) (left : Tree α) (value : α) (right : Tree α)
  deriving Repr

variable {α β : Type*}

namespace Tree

def color : Tree α → Color
  | nil => .black
  | node color _ _ _ => color

def paint (color : Color) : Tree α → Tree α
  | nil => nil
  | node _ left value right => node color left value right

def child : Side → Tree α → Tree α
  | _, nil => nil
  | .left, node _ left _ _ => left
  | .right, node _ _ _ right => right

/-- A node seen from one side: the subtree on that side comes first. -/
def join : Side → Color → Tree α → α → Tree α → Tree α
  | .left, color, near, value, far => node color near value far
  | .right, color, near, value, far => node color far value near

def inorder : Tree α → List α
  | nil => []
  | node _ left value right => inorder left ++ value :: inorder right

@[simp] theorem inorder_nil : (nil : Tree α).inorder = [] :=
  rfl

@[simp] theorem inorder_node (color : Color) (left right : Tree α) (value : α) :
    (node color left value right).inorder = left.inorder ++ value :: right.inorder :=
  rfl

@[simp] theorem color_nil : (nil : Tree α).color = .black :=
  rfl

@[simp] theorem color_node (color : Color) (left right : Tree α) (value : α) :
    (node color left value right).color = color :=
  rfl

@[simp] theorem inorder_paint (color : Color) (tree : Tree α) :
    (tree.paint color).inorder = tree.inorder := by
  cases tree <;> rfl

@[simp] theorem color_join (side : Side) (color : Color) (near far : Tree α) (value : α) :
    (join side color near value far).color = color := by
  cases side <;> rfl

@[simp] theorem child_join_near (side : Side) (color : Color) (near far : Tree α) (value : α) :
    (join side color near value far).child side = near := by
  cases side <;> rfl

@[simp] theorem child_join_far (side : Side) (color : Color) (near far : Tree α) (value : α) :
    (join side color near value far).child side.other = far := by
  cases side <;> rfl

/-- A node seen from the other side. -/
theorem join_other (side : Side) (color : Color) (near far : Tree α) (value : α) :
    join side.other color near value far = join side color far value near := by
  cases side <;> rfl

@[simp] theorem paint_join (side : Side) (color painted : Color) (near far : Tree α) (value : α) :
    (join side color near value far).paint painted = join side painted near value far := by
  cases side <;> rfl

@[simp] theorem paint_paint (first second : Color) (tree : Tree α) :
    (tree.paint first).paint second = tree.paint second := by
  cases tree <;> rfl

/-- Painting a tree in its own colour changes nothing. -/
theorem paint_self (tree : Tree α) : tree.paint tree.color = tree := by
  cases tree <;> rfl

/-- A node is a join seen from either side. -/
theorem node_eq_join (side : Side) (color : Color) (left right : Tree α) (value : α) :
    node color left value right =
      join side color ((node color left value right).child side) value
        ((node color left value right).child side.other) := by
  cases side <;> rfl

theorem join_ne_nil (side : Side) (color : Color) (near far : Tree α) (value : α) :
    join side color near value far ≠ nil := by
  intro same
  cases side <;> cases same

/-- A nonempty tree is a join seen from either side. -/
theorem exists_join (side : Side) {tree : Tree α} (nonempty : tree ≠ nil) :
    ∃ color near value far, tree = join side color near value far := by
  cases tree with
  | nil => exact absurd rfl nonempty
  | node color left value right => exact ⟨_, _, _, _, node_eq_join side color left right value⟩

/-- A red tree has a node. -/
theorem ne_nil_of_red {tree : Tree α} (isRed : tree.color = .red) : tree ≠ nil := by
  rintro rfl
  cases isRed

/-- A rotation keeps the values in their order. -/
theorem inorder_rotate (side : Side) (upper lower painted repainted : Color)
    (near middle far : Tree α) (first second : α) :
    (join side lower (join side upper near first middle) second far).inorder =
      (join side painted near first (join side repainted middle second far)).inorder := by
  cases side <;> simp [join]

end Tree

open RedBlack.Tree

/-! ## Paths -/

/-- One step of a path: a node without the subtree the path goes into. -/
structure Frame (α : Type*) where
  side : Side
  color : Color
  value : α
  sibling : Tree α

def Frame.fill (frame : Frame α) (tree : Tree α) : Tree α :=
  join frame.side frame.color tree frame.value frame.sibling

def plug : List (Frame α) → Tree α → Tree α
  | [], tree => tree
  | frame :: path, tree => plug path (frame.fill tree)

def before : List (Frame α) → List α
  | [] => []
  | frame :: path =>
      before path ++ match frame.side with
        | .left => []
        | .right => frame.sibling.inorder ++ [frame.value]

def after : List (Frame α) → List α
  | [] => []
  | frame :: path =>
      (match frame.side with
        | .left => frame.value :: frame.sibling.inorder
        | .right => []) ++ after path

@[simp] theorem plug_nil (tree : Tree α) : plug [] tree = tree :=
  rfl

@[simp] theorem plug_cons (frame : Frame α) (path : List (Frame α)) (tree : Tree α) :
    plug (frame :: path) tree = plug path (frame.fill tree) :=
  rfl

theorem plug_append (inner outer : List (Frame α)) (tree : Tree α) :
    plug (inner ++ outer) tree = plug outer (plug inner tree) := by
  induction inner generalizing tree with
  | nil => rfl
  | cons frame inner ih => exact ih (frame.fill tree)

theorem before_append (inner outer : List (Frame α)) :
    before (inner ++ outer) = before outer ++ before inner := by
  induction inner with
  | nil => simp [before]
  | cons frame inner ih => simp [before, ih]

theorem after_append (inner outer : List (Frame α)) :
    after (inner ++ outer) = after inner ++ after outer := by
  induction inner with
  | nil => simp [after]
  | cons frame inner ih => simp [after, ih]

/-- The values of a tree around one of its subtrees. -/
theorem inorder_plug (path : List (Frame α)) (tree : Tree α) :
    (plug path tree).inorder = before path ++ tree.inorder ++ after path := by
  induction path generalizing tree with
  | nil => simp [before, after]
  | cons frame path ih =>
      obtain ⟨side, color, value, sibling⟩ := frame
      cases side <;> simp [ih, Frame.fill, join, before, after]

/-- Subtrees with the same values can stand for one another. -/
theorem inorder_plug_congr (path : List (Frame α)) {tree replacement : Tree α}
    (same : replacement.inorder = tree.inorder) :
    (plug path replacement).inorder = (plug path tree).inorder := by
  simp only [inorder_plug, same]

theorem plug_ne_nil (path : List (Frame α)) {tree : Tree α} (nonempty : tree ≠ nil) :
    plug path tree ≠ nil := by
  induction path generalizing tree with
  | nil => exact nonempty
  | cons frame path ih =>
      exact ih (join_ne_nil _ _ _ _ _)

/-- The colour of a tree changes only with that of the whole subtree. -/
theorem color_plug_congr (path : List (Frame α)) {tree replacement : Tree α}
    (same : replacement.color = tree.color) :
    (plug path replacement).color = (plug path tree).color := by
  induction path generalizing tree replacement with
  | nil => exact same
  | cons frame path ih =>
      apply ih
      rw [Frame.fill, Frame.fill, color_join, color_join]

/-- A path is no longer than its tree is large. -/
theorem length_le_inorder_plug (path : List (Frame α)) (tree : Tree α) :
    path.length + tree.inorder.length ≤ (plug path tree).inorder.length := by
  induction path generalizing tree with
  | nil => simp
  | cons frame path ih =>
      have longer : tree.inorder.length + 1 ≤ (frame.fill tree).inorder.length := by
        obtain ⟨side, color, value, sibling⟩ := frame
        cases side <;> simp [Frame.fill, join]
      have := ih (frame.fill tree)
      simp only [List.length_cons, plug_cons]
      omega

/-- The path with its last node, the root of the tree, in another colour. -/
def paintLast (color : Color) : List (Frame α) → List (Frame α)
  | [] => []
  | [frame] => [{ frame with color := color }]
  | frame :: next :: path => frame :: paintLast color (next :: path)

theorem plug_paintLast (color : Color) {path : List (Frame α)} (below : path ≠ [])
    (tree : Tree α) : plug (paintLast color path) tree = (plug path tree).paint color := by
  induction path generalizing tree with
  | nil => exact absurd rfl below
  | cons frame path ih =>
      cases path with
      | nil => exact (paint_join _ _ _ _ _ _).symm
      | cons next path => exact ih (by simp) (frame.fill tree)

/-- Every place in the order of a tree is a node with a path to it. -/
theorem exists_path {tree : Tree α} {front back : List α} {value : α}
    (place : tree.inorder = front ++ value :: back) :
    ∃ path color left right, plug path (node color left value right) = tree ∧
      before path ++ left.inorder = front ∧ right.inorder ++ after path = back := by
  induction tree generalizing front back with
  | nil => simp at place
  | node color left middle right ihLeft ihRight =>
      rw [inorder_node, List.append_eq_append_iff] at place
      rcases place with ⟨skipped, front_eq, rest⟩ | ⟨kept, left_eq, rest⟩
      · cases skipped with
        | nil =>
            obtain ⟨rfl, rfl⟩ : middle = value ∧ right.inorder = back := by simpa using rest
            exact ⟨[], color, left, right, rfl, by simpa [before] using front_eq.symm,
              by simp [after]⟩
        | cons head skipped =>
            obtain ⟨rfl, right_eq⟩ : middle = head ∧ right.inorder = skipped ++ value :: back := by
              simpa using rest
            obtain ⟨path, inner, near, far, filled, smaller, larger⟩ := ihRight right_eq
            refine ⟨path ++ [⟨.right, color, middle, left⟩], inner, near, far, ?_, ?_, ?_⟩
            · rw [plug_append, filled]; rfl
            · rw [before_append, List.append_assoc, smaller, front_eq]
              simp [before]
            · rw [after_append, ← List.append_assoc, larger]
              simp [after]
      · cases kept with
        | nil =>
            obtain ⟨rfl, rfl⟩ : value = middle ∧ back = right.inorder := by simpa using rest
            exact ⟨[], color, left, right, rfl, by simpa [before] using left_eq, by simp [after]⟩
        | cons head kept =>
            obtain ⟨rfl, back_eq⟩ : value = head ∧ back = kept ++ middle :: right.inorder := by
              simpa using rest
            obtain ⟨path, inner, near, far, filled, smaller, larger⟩ := ihLeft left_eq
            refine ⟨path ++ [⟨.left, color, middle, right⟩], inner, near, far, ?_, ?_, ?_⟩
            · rw [plug_append, filled]; rfl
            · rw [before_append, List.append_assoc, smaller]
              simp [before]
            · rw [after_append, ← List.append_assoc, larger, back_eq]
              simp [after]

/-! ## Search -/

/-- Binary search directed by a comparison with the value at each node. -/
def find (direction : α → Ordering) : Tree α → Option α
  | nil => none
  | node _ left value right =>
      match direction value with
      | .lt => find direction left
      | .gt => find direction right
      | .eq => some value

/-- The path to the empty place where a new value belongs: to the left of the
values it is below, to the right of all others. -/
def descend (below : α → Bool) : Tree α → List (Frame α) → List (Frame α)
  | nil, path => path
  | node color left value right, path =>
      if below value then descend below left (⟨.left, color, value, right⟩ :: path)
      else descend below right (⟨.right, color, value, left⟩ :: path)

theorem plug_descend (below : α → Bool) (tree : Tree α) (path : List (Frame α)) :
    plug (descend below tree path) nil = plug path tree := by
  induction tree generalizing path with
  | nil => rfl
  | node color left value right ihLeft ihRight =>
      cases goesLeft : below value with
      | true => simp only [descend, goesLeft, if_true, ihLeft]; rfl
      | false => simp only [descend, goesLeft, Bool.false_eq_true, if_false, ihRight]; rfl

/-- What a search returns is in the tree and compares equal. -/
theorem find_eq_some {direction : α → Ordering} {tree : Tree α} {value : α}
    (found : find direction tree = some value) :
    value ∈ tree.inorder ∧ direction value = .eq := by
  induction tree with
  | nil => cases found
  | node color left middle right ihLeft ihRight =>
      cases turn : direction middle with
      | lt =>
          obtain ⟨inLeft, equal⟩ := ihLeft (by simpa [find, turn] using found)
          exact ⟨by simp [inLeft], equal⟩
      | gt =>
          obtain ⟨inRight, equal⟩ := ihRight (by simpa [find, turn] using found)
          exact ⟨by simp [inRight], equal⟩
      | eq =>
          obtain rfl : middle = value := by simpa [find, turn] using found
          exact ⟨by simp, turn⟩

section Order

variable [LinearOrder β] {rank : α → β}

/-- The ranks do not decrease from left to right. -/
def Sorted (rank : α → β) (tree : Tree α) : Prop :=
  tree.inorder.Pairwise fun first second => rank first ≤ rank second

/-- The comparison of a key with the values of a tree. -/
def towards (rank : α → β) (key : β) (value : α) : Ordering := cmp key (rank value)

/-- A node's values lie between those of its subtrees. -/
theorem sorted_node {color : Color} {left right : Tree α} {value : α} :
    Sorted rank (node color left value right) ↔
      Sorted rank left ∧ Sorted rank right ∧ (∀ lower ∈ left.inorder, rank lower ≤ rank value) ∧
        (∀ upper ∈ right.inorder, rank value ≤ rank upper) ∧
        ∀ lower ∈ left.inorder, ∀ upper ∈ right.inorder, rank lower ≤ rank upper := by
  simp only [Sorted, inorder_node, List.pairwise_append, List.pairwise_cons, List.mem_cons,
    forall_eq_or_imp]
  constructor
  · rintro ⟨sortedLeft, ⟨above, sortedRight⟩, apart⟩
    exact ⟨sortedLeft, sortedRight, fun lower inLeft => (apart lower inLeft).1, above,
      fun lower inLeft => (apart lower inLeft).2⟩
  · rintro ⟨sortedLeft, sortedRight, below, above, apart⟩
    exact ⟨sortedLeft, ⟨above, sortedRight⟩, fun lower inLeft =>
      ⟨below lower inLeft, apart lower inLeft⟩⟩

/-- In a sorted tree a search finds a value exactly when there is one to find. -/
theorem find_isSome_iff {tree : Tree α} (sorted : Sorted rank tree) (key : β) :
    (find (towards rank key) tree).isSome ↔ ∃ value ∈ tree.inorder, rank value = key := by
  constructor
  · intro some
    obtain ⟨value, found⟩ := Option.isSome_iff_exists.mp some
    obtain ⟨member, equal⟩ := find_eq_some found
    exact ⟨value, member, (cmp_eq_eq_iff key (rank value)).mp equal |>.symm⟩
  · rintro ⟨value, member, rfl⟩
    induction tree with
    | nil => simp at member
    | node color left middle right ihLeft ihRight =>
        obtain ⟨sortedLeft, sortedRight, below, above, -⟩ := sorted_node.mp sorted
        cases turn : towards rank (rank value) middle with
        | lt =>
            have smaller : rank value < rank middle := (cmp_eq_lt_iff _ _).mp turn
            have inLeft : value ∈ left.inorder := by
              rcases List.mem_append.mp member with inLeft | rest
              · exact inLeft
              · rcases List.mem_cons.mp rest with rfl | inRight
                · exact absurd smaller (lt_irrefl _)
                · exact absurd smaller (not_lt_of_ge (above value inRight))
            simpa [find, turn] using ihLeft sortedLeft inLeft
        | gt =>
            have larger : rank middle < rank value := (cmp_eq_gt_iff _ _).mp turn
            have inRight : value ∈ right.inorder := by
              rcases List.mem_append.mp member with inLeft | rest
              · exact absurd larger (not_lt_of_ge (below value inLeft))
              · rcases List.mem_cons.mp rest with rfl | inRight
                · exact absurd larger (lt_irrefl _)
                · exact inRight
            simpa [find, turn] using ihRight sortedRight inRight
        | eq => simp [find, turn]

/-- The place a descent ends at is above the values that are not larger than
the key, and below the larger ones. -/
theorem descend_between {tree : Tree α} (sorted : Sorted rank tree) (key : β)
    (path : List (Frame α)) (lower : ∀ value ∈ before path, rank value ≤ key)
    (upper : ∀ value ∈ after path, key < rank value) :
    (∀ value ∈ before (descend (fun value => key < rank value) tree path), rank value ≤ key) ∧
      ∀ value ∈ after (descend (fun value => key < rank value) tree path), key < rank value := by
  induction tree generalizing path with
  | nil => exact ⟨lower, upper⟩
  | node color left middle right ihLeft ihRight =>
      obtain ⟨sortedLeft, sortedRight, below, above, -⟩ := sorted_node.mp sorted
      by_cases smaller : key < rank middle
      · simp only [descend, decide_eq_true smaller, if_true]
        apply ihLeft sortedLeft _
        · simpa [before] using lower
        · intro value member
          rcases List.mem_append.mp member with near | far
          · rcases List.mem_cons.mp near with rfl | inRight
            · exact smaller
            · exact lt_of_lt_of_le smaller (above value inRight)
          · exact upper value far
      · simp only [descend, decide_eq_false smaller, Bool.false_eq_true, if_false]
        have reached : rank middle ≤ key := not_lt.mp smaller
        apply ihRight sortedRight _
        · intro value member
          rcases List.mem_append.mp member with far | near
          · exact lower value far
          · rcases List.mem_append.mp near with inLeft | last
            · exact le_trans (below value inLeft) reached
            · rw [List.mem_singleton.mp last]; exact reached
        · simpa [after] using upper

/-- A value put where the descent for its rank ends keeps the tree sorted. -/
theorem sorted_plug_descend {tree : Tree α} (sorted : Sorted rank tree) (color : Color)
    (value : α) :
    Sorted rank (plug (descend (fun other => rank value < rank other) tree [])
      (node color nil value nil)) := by
  obtain ⟨lower, upper⟩ := descend_between sorted (rank value) [] (by simp [before])
    (by simp [after])
  have apart : Sorted rank (plug (descend (fun other => rank value < rank other) tree []) nil) := by
    rw [plug_descend]; exact sorted
  rw [Sorted, inorder_plug] at apart ⊢
  simp only [inorder_nil, inorder_node, List.append_nil, List.nil_append, List.append_assoc,
    List.cons_append, List.pairwise_append, List.pairwise_cons, List.mem_cons,
    forall_eq_or_imp] at apart ⊢
  obtain ⟨front, back, between⟩ := apart
  exact ⟨front, ⟨fun other member => le_of_lt (upper other member), back⟩,
    fun other member => ⟨lower other member, between other member⟩⟩

end Order

end M2Handler.RedBlack

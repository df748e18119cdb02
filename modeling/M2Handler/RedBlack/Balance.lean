import M2Handler.RedBlack.Tree

/-!
# Red-black balance and its repair

An insertion can leave a red node under a red parent, and a removal can leave a
subtree that is one black node short.  Both repairs walk up a path and end with a
balanced tree that holds the same values in the same order.
-/

namespace M2Handler.RedBlack

open RedBlack.Tree

variable {α : Type*}

/-! ## Balanced trees and the paths they fit -/

/-- Every path down has the given number of black nodes, and the children of a
red node are black. -/
inductive Balanced : Tree α → Nat → Prop where
  | nil : Balanced nil 0
  | red {left right : Tree α} {value : α} {height : Nat} (balancedLeft : Balanced left height)
      (balancedRight : Balanced right height) (blackLeft : left.color = .black)
      (blackRight : right.color = .black) : Balanced (node .red left value right) height
  | black {left right : Tree α} {value : α} {height : Nat} (balancedLeft : Balanced left height)
      (balancedRight : Balanced right height) : Balanced (node .black left value right) (height + 1)

@[simp] theorem balanced_nil_iff {height : Nat} :
    Balanced (nil : Tree α) height ↔ height = 0 := by
  constructor
  · rintro ⟨⟩; rfl
  · rintro rfl; exact .nil

@[simp] theorem balanced_red_iff {side : Side} {near far : Tree α} {value : α} {height : Nat} :
    Balanced (join side .red near value far) height ↔
      Balanced near height ∧ Balanced far height ∧ near.color = .black ∧ far.color = .black := by
  cases side
  · constructor
    · rintro ⟨⟩; exact ⟨‹_›, ‹_›, ‹_›, ‹_›⟩
    · rintro ⟨near, far, blackNear, blackFar⟩; exact .red near far blackNear blackFar
  · constructor
    · rintro ⟨⟩; exact ⟨‹_›, ‹_›, ‹_›, ‹_›⟩
    · rintro ⟨near, far, blackNear, blackFar⟩; exact .red far near blackFar blackNear

@[simp] theorem balanced_black_iff {side : Side} {near far : Tree α} {value : α} {height : Nat} :
    Balanced (join side .black near value far) (height + 1) ↔
      Balanced near height ∧ Balanced far height := by
  cases side
  · constructor
    · rintro ⟨⟩; exact ⟨‹_›, ‹_›⟩
    · rintro ⟨near, far⟩; exact .black near far
  · constructor
    · rintro ⟨⟩; exact ⟨‹_›, ‹_›⟩
    · rintro ⟨near, far⟩; exact .black far near

/-- A tree with a black node has a black node on every path. -/
theorem Balanced.pos_of_black {side : Side} {near far : Tree α} {value : α} {height : Nat}
    (balanced : Balanced (join side .black near value far) height) : ∃ below, height = below + 1 := by
  cases side <;> cases balanced <;> exact ⟨_, rfl⟩

/-- A tree with a black node on every path is not empty. -/
theorem Balanced.ne_nil {tree : Tree α} {height : Nat} (balanced : Balanced tree (height + 1)) :
    tree ≠ .nil := by
  rintro rfl
  cases balanced

/-- The paths of a tree have one number of black nodes. -/
theorem Balanced.unique {tree : Tree α} {height height' : Nat} (balanced : Balanced tree height)
    (balanced' : Balanced tree height') : height = height' := by
  induction balanced generalizing height' with
  | nil => cases balanced'; rfl
  | red _ _ _ _ ihLeft _ =>
      cases balanced' with
      | red balancedLeft _ _ _ => exact ihLeft balancedLeft
  | black _ _ ihLeft _ =>
      cases balanced' with
      | black balancedLeft _ => exact congrArg (· + 1) (ihLeft balancedLeft)

/-- A balanced tree has all the nodes of its black rows. -/
theorem Balanced.two_pow_le {tree : Tree α} {height : Nat} (balanced : Balanced tree height) :
    2 ^ height ≤ tree.inorder.length + 1 := by
  induction balanced with
  | nil => rfl
  | red _ _ _ _ ihLeft _ =>
      rw [inorder_node, List.length_append, List.length_cons]
      omega
  | black _ _ ihLeft ihRight =>
      rw [inorder_node, List.length_append, List.length_cons, Nat.pow_succ]
      omega

/-- A balanced tree of `2 ^ bound` nodes has no more black rows than `bound`. -/
theorem Balanced.height_le {tree : Tree α} {height bound : Nat} (balanced : Balanced tree height)
    (size : tree.inorder.length < 2 ^ bound) : height ≤ bound :=
  (Nat.pow_le_pow_iff_right (by decide)).mp (balanced.two_pow_le.trans size)

/-- Painting a red root black adds one black node to every path. -/
theorem Balanced.paint_black {tree : Tree α} {height : Nat} (balanced : Balanced tree height)
    (isRed : tree.color = .red) : Balanced (tree.paint .black) (height + 1) := by
  cases balanced with
  | nil => cases isRed
  | red left right _ _ => exact .black left right
  | black _ _ => cases isRed

/-- A balanced tree with a black root. -/
def IsRedBlack (tree : Tree α) : Prop := tree.color = .black ∧ ∃ height, Balanced tree height

/-- A red node may be put at the end of a path under a black node only. -/
def AdmitsRed : List (Frame α) → Prop
  | [] => False
  | frame :: _ => frame.color = .black

/-- The height of a node over subtrees of the given height. -/
def Color.over : Color → Nat → Nat
  | .red, height => height
  | .black, height => height + 1

theorem Color.over_succ (color : Color) (height : Nat) :
    color.over (height + 1) = color.over height + 1 := by
  cases color <;> rfl

/-- A path into a balanced tree, up to the subtree of the given height that it
leads to. -/
def Fits : List (Frame α) → Nat → Prop
  | [], _ => True
  | frame :: path, height =>
      Balanced frame.sibling height ∧
        (frame.color = .red → frame.sibling.color = .black ∧ AdmitsRed path) ∧
        Fits path (frame.color.over height)

/-- A tree is red-black exactly when the path to a subtree and the subtree fit
together. -/
theorem isRedBlack_plug_iff {path : List (Frame α)} {tree : Tree α} :
    IsRedBlack (plug path tree) ↔
      ∃ height, Fits path height ∧ Balanced tree height ∧
        (tree.color = .red → AdmitsRed path) := by
  induction path generalizing tree with
  | nil =>
      constructor
      · rintro ⟨isBlack, height, balanced⟩
        exact ⟨height, trivial, balanced, fun isRed => by rw [plug_nil, isRed] at isBlack; cases isBlack⟩
      · rintro ⟨height, -, balanced, notRed⟩
        exact ⟨Color.eq_black notRed, height, balanced⟩
  | cons frame path ih =>
      obtain ⟨side, color, value, sibling⟩ := frame
      rw [plug_cons, ih]
      simp only [Frame.fill, Fits, color_join]
      cases color with
      | red =>
          simp only [AdmitsRed, Color.over, balanced_red_iff, true_implies]
          constructor
          · rintro ⟨height, fits, ⟨balanced, balancedSibling, isBlack, blackSibling⟩, admits⟩
            refine ⟨height, ⟨balancedSibling, ⟨blackSibling, admits⟩, fits⟩, balanced, ?_⟩
            intro isRed; rw [isRed] at isBlack; cases isBlack
          · rintro ⟨height, ⟨balancedSibling, ⟨blackSibling, admits⟩, fits⟩, balanced, notRed⟩
            have isBlack : tree.color = .black := Color.eq_black fun isRed => by cases notRed isRed
            exact ⟨height, fits, ⟨balanced, balancedSibling, isBlack, blackSibling⟩, admits⟩
      | black =>
          simp only [AdmitsRed, Color.over]
          constructor
          · rintro ⟨height, fits, balanced, -⟩
            obtain ⟨below, rfl⟩ := balanced.pos_of_black
            obtain ⟨balancedTree, balancedSibling⟩ := balanced_black_iff.mp balanced
            exact ⟨below, ⟨balancedSibling, (fun impossible => by cases impossible), fits⟩,
              balancedTree, fun _ => trivial⟩
          · rintro ⟨height, ⟨balancedSibling, -, fits⟩, balanced, -⟩
            exact ⟨height + 1, fits, balanced_black_iff.mpr ⟨balanced, balancedSibling⟩,
              fun impossible => by cases impossible⟩

theorem IsRedBlack.paint_black {tree : Tree α} (redBlack : IsRedBlack tree) :
    tree.paint .black = tree := by
  have same := paint_self tree
  rwa [redBlack.1] at same

/-- A balanced black subtree at the end of a path that fits. -/
theorem isRedBlack_plug (path : List (Frame α)) {tree : Tree α} {height : Nat}
    (fits : Fits path height) (balanced : Balanced tree height) (isBlack : tree.color = .black) :
    IsRedBlack (plug path tree) :=
  isRedBlack_plug_iff.mpr ⟨height, fits, balanced, fun isRed => by rw [isBlack] at isRed; cases isRed⟩

/-! ## Repair after an insertion -/

/-- A red node under a red parent with a black uncle: one or two rotations. -/
def insertRotate (parent grandpa : Frame α) (inserted : Tree α) : Tree α :=
  if parent.side = grandpa.side then
    join grandpa.side .black inserted parent.value
      (join grandpa.side .red parent.sibling grandpa.value grandpa.sibling)
  else
    match inserted with
    | nil => grandpa.fill (parent.fill nil)
    | node color left value right =>
        join grandpa.side .black
          (join grandpa.side .red parent.sibling parent.value
            ((node color left value right).child grandpa.side))
          value
          (join grandpa.side .red ((node color left value right).child grandpa.side.other)
            grandpa.value grandpa.sibling)

/-- The repair above a red node: while its parent is red, a red uncle moves the
red node two steps up and a black uncle ends the repair with rotations. -/
def insertFixup : List (Frame α) → Tree α → Tree α
  | [], inserted => inserted.paint .black
  | [parent], inserted => (parent.fill inserted).paint .black
  | parent :: grandpa :: path, inserted =>
      if parent.color = .red then
        if grandpa.sibling.color = .red then
          insertFixup path (join grandpa.side .red ((parent.fill inserted).paint .black)
            grandpa.value (grandpa.sibling.paint .black))
        else (plug path (insertRotate parent grandpa inserted)).paint .black
      else (plug (parent :: grandpa :: path) inserted).paint .black

theorem insertRotate_outer (side : Side) (color colorAbove : Color) (value valueAbove : α)
    (inserted sibling uncle : Tree α) :
    insertRotate ⟨side, color, value, sibling⟩ ⟨side, colorAbove, valueAbove, uncle⟩ inserted =
      join side .black inserted value (join side .red sibling valueAbove uncle) := by
  simp [insertRotate]

theorem insertRotate_inner (side : Side) (color colorAbove inner : Color)
    (value valueAbove middle : α) (near far sibling uncle : Tree α) :
    insertRotate ⟨side.other, color, value, sibling⟩ ⟨side, colorAbove, valueAbove, uncle⟩
        (join side inner near middle far) =
      join side .black (join side .red sibling value near) middle
        (join side .red far valueAbove uncle) := by
  cases side <;> rfl

/-- Rotations keep the values in their order. -/
theorem inorder_insertRotate (parent grandpa : Frame α) (inserted : Tree α) :
    (insertRotate parent grandpa inserted).inorder =
      (grandpa.fill (parent.fill inserted)).inorder := by
  obtain ⟨side, color, value, sibling⟩ := parent
  obtain ⟨above, colorAbove, valueAbove, uncle⟩ := grandpa
  simp only [insertRotate, Frame.fill]
  split
  · next same => subst same; cases side <;> simp [join]
  · next different =>
      cases inserted with
      | nil => rfl
      | node inner left middle right =>
          cases side <;> cases above <;> simp [join, child] at different ⊢

theorem inorder_insertFixup (path : List (Frame α)) (inserted : Tree α) :
    (insertFixup path inserted).inorder = (plug path inserted).inorder := by
  induction path, inserted using insertFixup.induct with
  | case1 inserted => simp [insertFixup]
  | case2 parent inserted => simp [insertFixup]
  | case3 parent grandpa path inserted red uncleRed ih =>
      rw [insertFixup, if_pos red, if_pos uncleRed, ih]
      apply inorder_plug_congr path
      obtain ⟨side, color, value, sibling⟩ := grandpa
      cases side <;> simp [Frame.fill, join]
  | case4 parent grandpa path inserted red uncleBlack =>
      rw [insertFixup, if_pos red, if_neg uncleBlack, inorder_paint]
      exact inorder_plug_congr _ (inorder_insertRotate parent grandpa inserted)
  | case5 parent grandpa path inserted black =>
      rw [insertFixup, if_neg black, inorder_paint]

/-- The rotations make a balanced black tree. -/
theorem balanced_insertRotate (parent grandpa : Frame α) {inserted : Tree α} {height : Nat}
    (balanced : Balanced inserted height) (isRed : inserted.color = .red)
    (sibling : Balanced parent.sibling height) (blackSibling : parent.sibling.color = .black)
    (uncle : Balanced grandpa.sibling height) (blackUncle : grandpa.sibling.color = .black) :
    Balanced (insertRotate parent grandpa inserted) (height + 1) ∧
      (insertRotate parent grandpa inserted).color = .black := by
  obtain ⟨side, color, value, beside⟩ := parent
  obtain ⟨sideAbove, colorAbove, valueAbove, beyond⟩ := grandpa
  by_cases same : side = sideAbove
  · subst same
    rw [insertRotate_outer]
    exact ⟨balanced_black_iff.mpr ⟨balanced,
      balanced_red_iff.mpr ⟨sibling, uncle, blackSibling, blackUncle⟩⟩, color_join _ _ _ _ _⟩
  · obtain rfl := Side.eq_other_of_ne same
    obtain ⟨inner, near, middle, far, rfl⟩ := exists_join sideAbove (ne_nil_of_red isRed)
    obtain rfl : inner = .red := by simpa using isRed
    obtain ⟨balancedNear, balancedFar, blackNear, blackFar⟩ := balanced_red_iff.mp balanced
    rw [insertRotate_inner]
    exact ⟨balanced_black_iff.mpr ⟨balanced_red_iff.mpr ⟨sibling, balancedNear, blackSibling,
      blackNear⟩, balanced_red_iff.mpr ⟨balancedFar, uncle, blackFar, blackUncle⟩⟩,
      color_join _ _ _ _ _⟩

/-- The repair makes a red-black tree out of a balanced red node on a path that
fits. -/
theorem isRedBlack_insertFixup {path : List (Frame α)} {inserted : Tree α} {height : Nat}
    (fits : Fits path height) (balanced : Balanced inserted height)
    (isRed : inserted.color = .red) : IsRedBlack (insertFixup path inserted) := by
  induction path, inserted using insertFixup.induct generalizing height with
  | case1 inserted =>
      exact isRedBlack_plug [] trivial (balanced.paint_black isRed)
        (by cases balanced <;> rfl)
  | case2 parent inserted =>
      have blackParent : parent.color = .black := Color.eq_black fun redParent => by
        exact (fits.2.1 redParent).2
      have whole : IsRedBlack (plug [parent] inserted) :=
        isRedBlack_plug_iff.mpr ⟨height, fits, balanced, fun _ => blackParent⟩
      have same : insertFixup [parent] inserted = plug [parent] inserted := whole.paint_black
      rwa [same]
  | case3 parent grandpa path inserted red uncleRed ih =>
      obtain ⟨sibling, redParent, uncle, -, fitsAbove⟩ := fits
      obtain ⟨blackSibling, blackGrandpa⟩ := redParent red
      rw [AdmitsRed] at blackGrandpa
      simp only [red, blackGrandpa, Color.over] at uncle fitsAbove
      rw [insertFixup, if_pos red, if_pos uncleRed]
      apply ih fitsAbove
      · have : Balanced (parent.fill inserted |>.paint .black) (height + 1) := by
          simp [Frame.fill, balanced, sibling]
        refine balanced_red_iff.mpr ⟨this, uncle.paint_black uncleRed, by simp [Frame.fill], ?_⟩
        cases grandpa.sibling <;> rfl
      · exact color_join _ _ _ _ _
  | case4 parent grandpa path inserted red uncleBlack =>
      obtain ⟨sibling, redParent, uncle, -, fitsAbove⟩ := fits
      obtain ⟨blackSibling, blackGrandpa⟩ := redParent red
      rw [AdmitsRed] at blackGrandpa
      simp only [red, blackGrandpa, Color.over] at uncle fitsAbove
      obtain ⟨rotated, isBlack⟩ := balanced_insertRotate parent grandpa balanced isRed
        sibling blackSibling uncle (Color.eq_black uncleBlack)
      have whole := isRedBlack_plug _ fitsAbove rotated isBlack
      rwa [insertFixup, if_pos red, if_neg uncleBlack, whole.paint_black]
  | case5 parent grandpa path inserted black =>
      have whole : IsRedBlack (plug (parent :: grandpa :: path) inserted) :=
        isRedBlack_plug_iff.mpr ⟨height, fits, balanced, fun _ => Color.eq_black black⟩
      rwa [insertFixup, if_neg black, whole.paint_black]

/-! ## Repair after a removal -/

/-- What the rotations under a parent leave: a subtree of the full height, or one
whose paths are all one black node short. -/
inductive Repaired (α : Type*) where
  | full (tree : Tree α)
  | short (tree : Tree α)

namespace Repaired

def tree : Repaired α → Tree α
  | .full tree => tree
  | .short tree => tree

def settled : Repaired α → Tree α
  | .full tree => tree
  | .short tree => tree.paint .black

@[simp] theorem inorder_settled (repaired : Repaired α) :
    repaired.settled.inorder = repaired.tree.inorder := by
  cases repaired <;> simp [settled, tree]

/-- Whether the repair goes on above the subtree. -/
def goesOn : Repaired α → Bool
  | .full _ => false
  | .short _ => true

end Repaired

/-- A short black child beside a black sister: two black nephews turn the sister
red, and a red nephew lets one or two rotations end the repair. -/
def blackSister (side : Side) (color : Color) (value : α) (sister short : Tree α) : Repaired α :=
  match sister with
  | nil => .full (join side color short value nil)
  | node _ _ middle _ =>
      let near := sister.child side
      let far := sister.child side.other
      if near.color = .black ∧ far.color = .black then
        .short (join side color short value (sister.paint .red))
      else if far.color = .black then
        match near with
        | nil => .full (join side color short value sister)
        | node _ _ top _ =>
            .full (join side color (join side .black short value (near.child side)) top
              (join side .black (near.child side.other) middle far))
      else .full (join side color (join side .black short value near) middle (far.paint .black))

/-- A short black child beside a red sister: after a rotation its sister is black
and its parent is red. -/
def redSister (parent : Frame α) (short : Tree α) : Tree α :=
  match parent.sibling with
  | nil => parent.fill short
  | node _ _ middle _ =>
      let near := parent.sibling.child parent.side
      let far := parent.sibling.child parent.side.other
      join parent.side .black (blackSister parent.side .red parent.value near short).settled
        middle far

/-- The repair above a short subtree: a red root becomes black, a red sister is
rotated away first, and two black nephews move the shortage one step up. -/
def deleteFixup : List (Frame α) → Tree α → Tree α
  | [], short => short.paint .black
  | parent :: path, short =>
      if short.color = .red then (plug (parent :: path) (short.paint .black)).paint .black
      else if parent.sibling.color = .red then (plug path (redSister parent short)).paint .black
      else
        match blackSister parent.side parent.color parent.value parent.sibling short with
        | .full tree => (plug path tree).paint .black
        | .short tree => deleteFixup path tree

/-- The nephews of a short child: both black, a red one next to the child, or a
red one away from it. -/
theorem nephews (side : Side) (near far : Tree α) :
    (near.color = .black ∧ far.color = .black) ∨
      (∃ left top right, near = join side .red left top right ∧ far.color = .black) ∨
      far.color = .red := by
  cases blackFar : far.color with
  | red => exact .inr (.inr rfl)
  | black =>
      cases nearColor : near.color with
      | black => exact .inl ⟨rfl, rfl⟩
      | red =>
          obtain ⟨color, left, top, right, rfl⟩ := exists_join side (ne_nil_of_red nearColor)
          obtain rfl : color = .red := by simpa using nearColor
          exact .inr (.inl ⟨left, top, right, rfl, rfl⟩)

/-- Two black nephews. -/
theorem blackSister_black {side : Side} {color inner : Color} {value middle : α}
    {near far short : Tree α} (blackNear : near.color = .black) (blackFar : far.color = .black) :
    blackSister side color value (join side inner near middle far) short =
      .short (join side color short value (join side .red near middle far)) := by
  cases side <;> simp [blackSister, join, child, blackNear, blackFar, paint]

/-- A red nephew next to the short child and a black one away from it. -/
theorem blackSister_near {side : Side} {color inner : Color} {value middle top : α}
    {left right far short : Tree α} (blackFar : far.color = .black) :
    blackSister side color value
        (join side inner (join side .red left top right) middle far) short =
      .full (join side color (join side .black short value left) top
        (join side .black right middle far)) := by
  cases side <;> simp [blackSister, join, child, blackFar]

/-- A red nephew away from the short child. -/
theorem blackSister_far {side : Side} {color inner : Color} {value middle : α}
    {near far short : Tree α} (redFar : far.color = .red) :
    blackSister side color value (join side inner near middle far) short =
      .full (join side color (join side .black short value near) middle (far.paint .black)) := by
  cases side <;> simp [blackSister, join, child, redFar]

theorem redSister_join {parent : Frame α} {inner : Color} {near far short : Tree α} {middle : α}
    (sibling : parent.sibling = join parent.side inner near middle far) :
    redSister parent short =
      join parent.side .black (blackSister parent.side .red parent.value near short).settled
        middle far := by
  obtain ⟨side, color, value, sister⟩ := parent
  dsimp only at sibling
  subst sibling
  cases side <;> rfl

/-- The repair under a black sister keeps the values in their order. -/
theorem inorder_blackSister (side : Side) (color : Color) (value : α) (sister short : Tree α) :
    (blackSister side color value sister short).tree.inorder =
      (join side color short value sister).inorder := by
  cases sister with
  | nil => rfl
  | node inner left middle right =>
      rw [node_eq_join side]
      generalize (node inner left middle right).child side = near
      generalize (node inner left middle right).child side.other = far
      rcases nephews side near far with ⟨blackNear, blackFar⟩ | ⟨_, _, _, rfl, blackFar⟩ | redFar
      · rw [blackSister_black blackNear blackFar]
        cases side <;> simp [Repaired.tree, join]
      · rw [blackSister_near blackFar]
        cases side <;> simp [Repaired.tree, join]
      · rw [blackSister_far redFar]
        cases side <;> simp [Repaired.tree, join]

theorem inorder_redSister (parent : Frame α) (short : Tree α) :
    (redSister parent short).inorder = (parent.fill short).inorder := by
  obtain ⟨side, color, value, sibling⟩ := parent
  cases sibling with
  | nil => rfl
  | node inner left middle right =>
      rw [redSister_join (node_eq_join side inner left right middle)]
      have nephews := inorder_blackSister side .red value
        ((node inner left middle right).child side) short
      cases side <;> simp_all [join, child, Frame.fill]

theorem inorder_deleteFixup (path : List (Frame α)) (short : Tree α) :
    (deleteFixup path short).inorder = (plug path short).inorder := by
  induction path generalizing short with
  | nil => simp [deleteFixup]
  | cons parent path ih =>
      unfold deleteFixup
      split
      · rw [inorder_paint]
        exact inorder_plug_congr _ (inorder_paint .black short)
      · split
        · rw [inorder_paint]
          exact inorder_plug_congr _ (inorder_redSister parent short)
        · have kept := inorder_blackSister parent.side parent.color parent.value
            parent.sibling short
          split
          · next tree outcome =>
              rw [outcome] at kept
              rw [inorder_paint]
              exact inorder_plug_congr _ kept
          · next tree outcome =>
              rw [outcome] at kept
              rw [ih]
              exact inorder_plug_congr _ kept

/-- The colour of a parent reaches only the root of what the rotations leave. -/
theorem paint_blackSister (side : Side) (color other : Color) (value : α)
    (sister short : Tree α) :
    (blackSister side color value sister short).tree.paint .black =
      (blackSister side other value sister short).tree.paint .black := by
  cases sister with
  | nil => simp [blackSister, Repaired.tree]
  | node inner left middle right =>
      simp only [blackSister]
      split
      · simp [Repaired.tree]
      · split
        · split <;> simp [Repaired.tree]
        · simp [Repaired.tree]

/-- The repair under the root. -/
theorem deleteFixup_root (parent : Frame α) (short : Tree α) :
    deleteFixup [parent] short =
      if short.color = .red then (parent.fill (short.paint .black)).paint .black
      else if parent.sibling.color = .red then (redSister parent short).paint .black
      else (blackSister parent.side parent.color parent.value parent.sibling short).tree.paint
        .black := by
  unfold deleteFixup
  cases blackSister parent.side parent.color parent.value parent.sibling short <;> rfl

/-- The colour of the root of the tree does not matter to the repair, which paints
the root black in the end. -/
theorem deleteFixup_paintLast (color : Color) (path : List (Frame α)) (short : Tree α) :
    deleteFixup (paintLast color path) short = deleteFixup path short := by
  induction path generalizing short with
  | nil => rfl
  | cons parent path ih =>
      cases path with
      | nil =>
          obtain ⟨side, old, value, sibling⟩ := parent
          rw [paintLast, deleteFixup_root, deleteFixup_root, paint_blackSister side color old]
          cases sibling <;> simp [Frame.fill, redSister]
      | cons next path =>
          have painted (tree : Tree α) : (plug (paintLast color (next :: path)) tree).paint .black =
              (plug (next :: path) tree).paint .black := by
            rw [plug_paintLast color (by simp), paint_paint]
          rw [paintLast]
          unfold deleteFixup
          simp only [ih, plug_cons parent, painted]

/-- A subtree whose paths are one black node short of the height above the given
one, unless its red root is painted black. -/
def Short (tree : Tree α) (height : Nat) : Prop :=
  match tree.color with
  | .red => Balanced (tree.paint .black) (height + 1)
  | .black => Balanced tree height

theorem Short.paint_black {tree : Tree α} {height : Nat} (short : Short tree height) :
    ∃ full, Balanced (tree.paint .black) full := by
  rw [Short] at short
  split at short
  · exact ⟨_, short⟩
  · next isBlack => exact ⟨height, by rwa [← isBlack, paint_self]⟩

/-- A balanced tree is short of the next height. -/
theorem Balanced.short {tree : Tree α} {height : Nat} (balanced : Balanced tree height) :
    Short tree height := by
  rw [Short]
  split
  · next isRed => exact balanced.paint_black isRed
  · exact balanced

/-- A node of any colour over black subtrees. -/
theorem balanced_over {side : Side} {near far : Tree α} {height : Nat} (color : Color) (value : α)
    (balancedNear : Balanced near height) (balancedFar : Balanced far height)
    (blackNear : near.color = .black) (blackFar : far.color = .black) :
    Balanced (join side color near value far) (color.over height) := by
  cases color
  · exact balanced_red_iff.mpr ⟨balancedNear, balancedFar, blackNear, blackFar⟩
  · exact balanced_black_iff.mpr ⟨balancedNear, balancedFar⟩

/-- What the rotations beside a black sister leave: a subtree of the full height,
or a short one, in the colour of the old parent. -/
theorem balanced_blackSister (side : Side) (color : Color) (value : α) {sister short : Tree α}
    {height : Nat} (balancedShort : Balanced short height)
    (balancedSister : Balanced sister (height + 1)) (black : sister.color = .black) :
    (blackSister side color value sister short).tree.color = color ∧
      match blackSister side color value sister short with
      | .full tree => Balanced tree (color.over (height + 1))
      | .short tree => Short tree (color.over height) := by
  obtain ⟨inner, near, middle, far, rfl⟩ := exists_join side balancedSister.ne_nil
  obtain rfl : inner = .black := by simpa using black
  obtain ⟨balancedNear, balancedFar⟩ := balanced_black_iff.mp balancedSister
  rcases nephews side near far with ⟨blackNear, blackFar⟩ | ⟨first, top, second, rfl, blackFar⟩ | redFar
  · rw [blackSister_black blackNear blackFar]
    refine ⟨color_join _ _ _ _ _, ?_⟩
    have redSister : Balanced (join side .red near middle far) height :=
      balanced_red_iff.mpr ⟨balancedNear, balancedFar, blackNear, blackFar⟩
    cases color <;> simp [Short, Color.over, balancedShort, redSister]
  · obtain ⟨balancedFirst, balancedSecond, -, -⟩ := balanced_red_iff.mp balancedNear
    rw [blackSister_near blackFar]
    refine ⟨color_join _ _ _ _ _, balanced_over color top ?_ ?_ ?_ ?_⟩
    · exact balanced_black_iff.mpr ⟨balancedShort, balancedFirst⟩
    · exact balanced_black_iff.mpr ⟨balancedSecond, balancedFar⟩
    · exact color_join _ _ _ _ _
    · exact color_join _ _ _ _ _
  · rw [blackSister_far redFar]
    refine ⟨color_join _ _ _ _ _, balanced_over color middle ?_ ?_ ?_ ?_⟩
    · exact balanced_black_iff.mpr ⟨balancedShort, balancedNear⟩
    · exact balancedFar.paint_black redFar
    · exact color_join _ _ _ _ _
    · cases far <;> rfl

/-- A red sister makes a black subtree of the full height. -/
theorem balanced_redSister {parent : Frame α} {short : Tree α} {height : Nat}
    (balancedShort : Balanced short height)
    (balancedSister : Balanced parent.sibling (height + 1)) (red : parent.sibling.color = .red) :
    Balanced (redSister parent short) (height + 2) ∧
      (redSister parent short).color = .black := by
  obtain ⟨inner, near, middle, far, sibling⟩ := exists_join parent.side (ne_nil_of_red red)
  rw [sibling] at balancedSister red
  obtain rfl : inner = .red := by simpa using red
  obtain ⟨balancedNear, balancedFar, blackNear, blackFar⟩ := balanced_red_iff.mp balancedSister
  rw [redSister_join sibling]
  refine ⟨balanced_black_iff.mpr ⟨?_, balancedFar⟩, color_join _ _ _ _ _⟩
  obtain ⟨isRed, outcome⟩ := balanced_blackSister parent.side .red parent.value
    balancedShort balancedNear blackNear
  cases repaired : blackSister parent.side .red parent.value near short with
  | full tree =>
      rw [repaired] at outcome
      exact outcome
  | short tree =>
      rw [repaired] at isRed outcome
      rw [Repaired.tree] at isRed
      simp only [Short, isRed] at outcome
      exact outcome

/-- The siblings along a path have the heights that a subtree of the given height
calls for, whatever the colours. -/
def Level : List (Frame α) → Nat → Prop
  | [], _ => True
  | frame :: path, height =>
      Balanced frame.sibling height ∧ Level path (frame.color.over height)

theorem Fits.level {path : List (Frame α)} {height : Nat} (fits : Fits path height) :
    Level path height := by
  induction path generalizing height with
  | nil => trivial
  | cons frame path ih => exact ⟨fits.1, ih fits.2.2⟩

/-- The colour of the root does not matter to the heights below it. -/
theorem Level.paintLast {path : List (Frame α)} {height : Nat} (level : Level path height)
    (color : Color) : Level (paintLast color path) height := by
  induction path generalizing height with
  | nil => trivial
  | cons frame path ih =>
      cases path with
      | nil => exact ⟨level.1, trivial⟩
      | cons next path => exact ⟨level.1, ih level.2⟩

/-- Rotations that end the repair leave the short subtree inside. -/
theorem blackSister_full {side : Side} {color : Color} {value : α} {sister short tree : Tree α}
    (full : blackSister side color value sister short = .full tree) :
    ∃ inside, tree = plug inside short := by
  cases sister with
  | nil =>
      obtain rfl := Repaired.full.inj full
      exact ⟨[⟨side, color, value, nil⟩], rfl⟩
  | node inner left middle right =>
      rw [node_eq_join side] at full
      generalize (node inner left middle right).child side = near at full
      generalize (node inner left middle right).child side.other = far at full
      rcases nephews side near far with ⟨blackNear, blackFar⟩ | ⟨first, top, second, rfl, blackFar⟩ |
        redFar
      · rw [blackSister_black blackNear blackFar] at full
        cases full
      · rw [blackSister_near blackFar] at full
        obtain rfl := Repaired.full.inj full
        exact ⟨[⟨side, .black, value, first⟩,
          ⟨side, color, top, join side .black second middle far⟩], rfl⟩
      · rw [blackSister_far redFar] at full
        obtain rfl := Repaired.full.inj full
        exact ⟨[⟨side, .black, value, near⟩, ⟨side, color, middle, far.paint .black⟩], rfl⟩

/-- A repair that goes on leaves the parent in its place and colour. -/
theorem blackSister_short {side : Side} {color : Color} {value : α} {sister short tree : Tree α}
    (goesOn : blackSister side color value sister short = .short tree) :
    ∃ far, tree = join side color short value far := by
  cases sister with
  | nil => cases goesOn
  | node inner left middle right =>
      rw [node_eq_join side] at goesOn
      generalize (node inner left middle right).child side = near at goesOn
      generalize (node inner left middle right).child side.other = far at goesOn
      rcases nephews side near far with ⟨blackNear, blackFar⟩ | ⟨_, _, _, rfl, blackFar⟩ | redFar
      · rw [blackSister_black blackNear blackFar] at goesOn
        exact ⟨_, (Repaired.short.inj goesOn).symm⟩
      · rw [blackSister_near blackFar] at goesOn
        cases goesOn
      · rw [blackSister_far redFar] at goesOn
        cases goesOn

/-- The repair makes a red-black tree out of a short subtree on a path that fits
the full height. -/
theorem isRedBlack_deleteFixup {path : List (Frame α)} {short : Tree α} {height : Nat}
    (fits : Fits path (height + 1)) (isShort : Short short height) :
    IsRedBlack (deleteFixup path short) := by
  induction path generalizing short height with
  | nil => exact ⟨by cases short <;> rfl, isShort.paint_black⟩
  | cons parent path ih =>
      obtain ⟨sibling, redParent, fitsAbove⟩ := fits
      unfold deleteFixup
      split
      · next red =>
          have balanced : Balanced (short.paint .black) (height + 1) := by
            simpa only [Short, red] using isShort
          have whole := isRedBlack_plug (parent :: path) ⟨sibling, redParent, fitsAbove⟩
            balanced (by cases short <;> rfl)
          rwa [whole.paint_black]
      · next notRed =>
          have blackShort := Color.eq_black notRed
          have balancedShort : Balanced short height := by
            simpa only [Short, blackShort] using isShort
          split
          · next redSibling =>
              have blackParent : parent.color = .black := Color.eq_black fun red => by
                rw [(redParent red).1] at redSibling
                cases redSibling
              obtain ⟨balanced, isBlack⟩ := balanced_redSister balancedShort sibling redSibling
              rw [blackParent] at fitsAbove
              have whole := isRedBlack_plug _ fitsAbove balanced isBlack
              rwa [whole.paint_black]
          · next blackSibling =>
              obtain ⟨sameColor, outcome⟩ := balanced_blackSister parent.side
                parent.color parent.value balancedShort sibling
                (Color.eq_black blackSibling)
              split
              · next tree repaired =>
                  rw [repaired] at sameColor outcome
                  have whole : IsRedBlack (plug path tree) := isRedBlack_plug_iff.mpr
                    ⟨_, fitsAbove, outcome, fun red => (redParent (sameColor ▸ red)).2⟩
                  rwa [whole.paint_black]
              · next tree repaired =>
                  rw [repaired] at outcome
                  rw [Color.over_succ] at fitsAbove
                  exact ih fitsAbove outcome

end M2Handler.RedBlack

import M2Handler.RedBlack.Balance

/-!
# Building a tree from its values in order

The rows of the tree are numbered from the bottom and coloured in turn, the
bottom row red.  The values arrive from left to right; a finished subtree waits
under the next value until its sibling is as high, like a digit of a binary
counter.  Only the bottom row may have gaps, and they are on its right.
-/

namespace M2Handler.RedBlack

open RedBlack.Tree

variable {α : Type*}

/-! ## Rows -/

/-- The colours of the rows alternate, from a red bottom row. -/
def rowColor (row : Nat) : Color := if row % 2 = 0 then .red else .black

/-- A tree with this many rows above the bottom row; only that row has gaps. -/
inductive Rows : Tree α → Nat → Prop where
  | nil : Rows nil 0
  | bottom (value : α) : Rows (node (rowColor 0) nil value nil) 0
  | above {left right : Tree α} {row : Nat} (value : α) (rowsLeft : Rows left row)
      (rowsRight : Rows right row) : Rows (node (rowColor (row + 1)) left value right) (row + 1)

/-- Half of the rows are black. -/
theorem Rows.balanced {tree : Tree α} {row : Nat} (rows : Rows tree row) :
    Balanced tree ((row + 1) / 2) ∧ (row % 2 = 1 → tree.color = .black) := by
  induction rows with
  | nil => exact ⟨.nil, fun _ => rfl⟩
  | bottom value => exact ⟨.red .nil .nil rfl rfl, fun odd => absurd odd (by decide)⟩
  | @above left right row value _ _ ihLeft ihRight =>
      by_cases even : row % 2 = 0
      · have isBlack : rowColor (row + 1) = .black := if_neg (by omega)
        have height : (row + 1 + 1) / 2 = (row + 1) / 2 + 1 := by omega
        rw [isBlack, height]
        exact ⟨.black ihLeft.1 ihRight.1, fun _ => rfl⟩
      · have isRed : rowColor (row + 1) = .red := if_pos (by omega)
        have height : (row + 1 + 1) / 2 = (row + 1) / 2 := by omega
        rw [isRed, height]
        exact ⟨.red ihLeft.1 ihRight.1 (ihLeft.2 (by omega)) (ihRight.2 (by omega)),
          fun odd => absurd odd (by omega)⟩

/-- With a black root such a tree is a red-black tree. -/
theorem Rows.isRedBlack {tree : Tree α} {row : Nat} (rows : Rows tree row) :
    IsRedBlack (tree.paint .black) := by
  obtain ⟨balanced, -⟩ := rows.balanced
  cases tree with
  | nil => exact ⟨rfl, _, balanced⟩
  | node color left value right =>
      refine ⟨rfl, ?_⟩
      cases color with
      | red => exact ⟨_, balanced.paint_black rfl⟩
      | black => exact ⟨_, balanced⟩

def Tree.depth : Tree α → Nat
  | nil => 0
  | node _ left _ right => max left.depth right.depth + 1

@[simp] theorem depth_paint (color : Color) (tree : Tree α) :
    (tree.paint color).depth = tree.depth := by
  cases tree <;> rfl

theorem Rows.depth_le {tree : Tree α} {row : Nat} (rows : Rows tree row) :
    tree.depth ≤ row + 1 := by
  induction rows with
  | nil => exact Nat.zero_le _
  | bottom value => exact Nat.le_refl _
  | above value _ _ ihLeft ihRight => exact Nat.succ_le_succ (max_le ihLeft ihRight)

/-- A tree of some depth has no room for more values than full rows have. -/
theorem length_lt_two_pow_depth (tree : Tree α) : tree.inorder.length < 2 ^ tree.depth := by
  induction tree with
  | nil => exact Nat.one_pos
  | node color left value right ihLeft ihRight =>
      have widerLeft : 2 ^ left.depth ≤ 2 ^ max left.depth right.depth :=
        Nat.pow_le_pow_right (by decide) (le_max_left _ _)
      have widerRight : 2 ^ right.depth ≤ 2 ^ max left.depth right.depth :=
        Nat.pow_le_pow_right (by decide) (le_max_right _ _)
      rw [inorder_node, List.length_append, List.length_cons, Tree.depth, Nat.pow_succ]
      omega

/-! ## Trees that wait for their right half -/

/-- A value above a finished left subtree with this many rows. -/
structure Waiting (α : Type*) where
  level : Nat
  left : Tree α
  value : α

def Waiting.over (waiting : Waiting α) (right : Tree α) : Tree α :=
  node (rowColor (waiting.level + 1)) waiting.left waiting.value right

/-- The finished tree becomes the right half of what waits on its level, and goes on. -/
def absorb : Nat → Tree α → List (Waiting α) → Nat × Tree α × List (Waiting α)
  | level, tree, [] => (level, tree, [])
  | level, tree, waiting :: others =>
      if waiting.level = level then absorb (level + 1) (waiting.over tree) others
      else (level, tree, waiting :: others)

structure Build (α : Type*) where
  /-- The row of the leaves: 0, and 1 once the bottom row is used up. -/
  base : Nat
  /-- The places left on the bottom row. -/
  bottom : Nat
  level : Nat
  complete : Option (Tree α)
  waiting : List (Waiting α)

namespace Build

def start (bottom : Nat) : Build α where
  base := 0
  bottom := bottom
  level := 0
  complete := none
  waiting := []

/-- A finished tree after what waits for it took it. -/
def carry (build : Build α) (level : Nat) (tree : Tree α) (waiting : List (Waiting α)) : Build α :=
  let (level, tree, waiting) := absorb level tree waiting
  { build with level := level, complete := some tree, waiting := waiting }

/-- The bottom row is used up: what waits above its last place gets no right child. -/
def raise (build : Build α) : Build α :=
  match build.waiting with
  | [] => { build with base := 1, level := 1 }
  | waiting :: others =>
      if waiting.level = 0 then { build with base := 1 }.carry 1 (waiting.over nil) others
      else { build with base := 1, level := 1 }

/-- A place on the bottom row is taken if a leaf is next. -/
def claim (build : Build α) : Build α :=
  if build.complete.isNone then
    if build.base = 0 ∧ build.bottom = 0 then build.raise
    else { build with bottom := build.bottom - 1 }
  else build

/-- The next value is a leaf, or it stands above the finished tree. -/
def place (build : Build α) (value : α) : Build α :=
  match build.complete with
  | none => build.carry build.base (node (rowColor build.base) nil value nil) build.waiting
  | some tree =>
      { build with
        level := build.base
        complete := none
        waiting := ⟨build.level, tree, value⟩ :: build.waiting }

def push (build : Build α) (value : α) : Build α := build.claim.place value

def finish (build : Build α) : Tree α :=
  (build.waiting.foldl (fun tree waiting => waiting.over tree) (build.complete.getD nil)).paint
    .black

end Build

/-- The places on the bottom row that full rows leave for the last values. -/
def bottomRow (count : Nat) : Nat := count - (2 ^ (count.size - 1) - 1)

def buildTree (values : List α) : Tree α :=
  (values.foldl Build.push (.start (bottomRow values.length))).finish

/-! ## The order of the values -/

/-- Absorbing keeps what the right edge of the tree becomes. -/
theorem foldl_absorb (level : Nat) (tree : Tree α) (waiting : List (Waiting α)) :
    (absorb level tree waiting).2.2.foldl (fun tree waiting => waiting.over tree)
        (absorb level tree waiting).2.1 =
      waiting.foldl (fun tree waiting => waiting.over tree) tree := by
  induction waiting generalizing level tree with
  | nil => rfl
  | cons first others ih =>
      rw [absorb]
      by_cases same : first.level = level
      · rw [if_pos same, ih, List.foldl_cons]
      · rw [if_neg same]

/-- What waits on a higher level is left alone. -/
theorem absorb_apart {level : Nat} {waiting : List (Waiting α)}
    (apart : ∀ other ∈ waiting, level < other.level) (tree : Tree α) :
    absorb level tree waiting = (level, tree, waiting) := by
  cases waiting with
  | nil => rfl
  | cons first others =>
      rw [absorb, if_neg (Nat.ne_of_gt (apart first List.mem_cons_self))]

theorem absorb_cons {level : Nat} (left right : Tree α) (value : α) (waiting : List (Waiting α)) :
    absorb level right (⟨level, left, value⟩ :: waiting) =
      absorb (level + 1) (node (rowColor (level + 1)) left value right) waiting := by
  rw [absorb, if_pos rfl]
  rfl

namespace Build

@[simp] theorem carry_base (build : Build α) (level : Nat) (tree : Tree α)
    (waiting : List (Waiting α)) : (build.carry level tree waiting).base = build.base :=
  rfl

@[simp] theorem carry_complete (build : Build α) (level : Nat) (tree : Tree α)
    (waiting : List (Waiting α)) :
    (build.carry level tree waiting).complete = some (absorb level tree waiting).2.1 :=
  rfl

@[simp] theorem carry_waiting (build : Build α) (level : Nat) (tree : Tree α)
    (waiting : List (Waiting α)) :
    (build.carry level tree waiting).waiting = (absorb level tree waiting).2.2 :=
  rfl

theorem claim_complete {build : Build α} {tree : Tree α} (complete : build.complete = some tree) :
    build.claim = build := by
  rw [claim, complete]
  rfl

theorem claim_incomplete {build : Build α} (incomplete : build.complete = none) :
    build.claim =
      if build.base = 0 ∧ build.bottom = 0 then build.raise
      else { build with bottom := build.bottom - 1 } := by
  rw [claim, incomplete]
  rfl

theorem place_complete {build : Build α} {tree : Tree α} (complete : build.complete = some tree)
    (value : α) :
    build.place value =
      { build with
        level := build.base
        complete := none
        waiting := ⟨build.level, tree, value⟩ :: build.waiting } := by
  rw [place]
  simp only [complete]

theorem place_incomplete {build : Build α} (incomplete : build.complete = none) (value : α) :
    build.place value =
      build.carry build.base (node (rowColor build.base) nil value nil) build.waiting := by
  rw [place]
  simp only [incomplete]

/-! ## The end of the bottom row -/

/-- The next leaf goes above the bottom row. -/
def Exhausted (build : Build α) : Prop :=
  build.complete = none ∧ build.base = 0 ∧ build.bottom = 0

instance (build : Build α) : Decidable build.Exhausted :=
  decidable_of_iff (build.complete.isNone ∧ build.base = 0 ∧ build.bottom = 0)
    (by rw [Option.isNone_iff_eq_none, Exhausted])

/-- The bottom row is given up as soon as it is used up. -/
def settle (build : Build α) : Build α := if build.Exhausted then build.raise else build

/-- After the bottom row was given up it is not given up again. -/
theorem claim_raise {build : Build α} (exhausted : build.Exhausted) :
    build.raise.claim = build.raise := by
  obtain ⟨incomplete, grounded, full⟩ := exhausted
  have stays {other : Build α} (incomplete : other.complete = none) (base : other.base = 1)
      (full : other.bottom = 0) : other.claim = other := by
    rw [claim_incomplete incomplete, if_neg (by simp [base]), full]
    cases other
    simpa using full.symm
  rw [raise]
  cases build.waiting with
  | nil => exact stays incomplete rfl full
  | cons first others =>
      by_cases lowest : first.level = 0
      · simp only [if_pos lowest]
        rfl
      · simp only [if_neg lowest]
        exact stays incomplete rfl full

/-- It makes no difference when the bottom row is given up. -/
theorem push_settle (build : Build α) (value : α) : build.settle.push value = build.push value := by
  rw [settle]
  by_cases exhausted : build.Exhausted
  · rw [if_pos exhausted, push, push, claim_raise exhausted]
    obtain ⟨incomplete, grounded, full⟩ := exhausted
    rw [claim_incomplete incomplete, if_pos ⟨grounded, full⟩]
  · rw [if_neg exhausted]

theorem finish_settle (build : Build α) : build.settle.finish = build.finish := by
  rw [settle]
  by_cases exhausted : build.Exhausted
  · rw [if_pos exhausted, raise, finish, finish, exhausted.1]
    cases build.waiting with
    | nil => rfl
    | cons first others =>
        by_cases lowest : first.level = 0
        · simp only [if_pos lowest, carry_complete, carry_waiting, Option.getD_some,
            Option.getD_none, foldl_absorb, List.foldl_cons]
        · simp only [if_neg lowest]
  · rw [if_neg exhausted]

def run (build : Build α) (values : List α) : Build α := (values.foldl push build).settle

theorem raise_base (build : Build α) : build.raise.base = 1 := by
  rw [raise]
  cases build.waiting with
  | nil => rfl
  | cons first others => by_cases lowest : first.level = 0 <;> simp [lowest]

theorem settle_settle (build : Build α) : build.settle.settle = build.settle := by
  refine if_neg ?_
  rw [settle]
  by_cases exhausted : build.Exhausted
  · rw [if_pos exhausted, Exhausted, raise_base]
    exact fun again => absurd again.2.1 (by decide)
  · rwa [if_neg exhausted]

theorem run_append (build : Build α) (first second : List α) :
    build.run (first ++ second) = (build.run first).run second := by
  rw [run, run, run, List.foldl_append]
  cases second with
  | nil => exact (settle_settle _).symm
  | cons value values => rw [List.foldl_cons, List.foldl_cons, push_settle]

theorem run_cons (build : Build α) (value : α) (values : List α) :
    build.run (value :: values) = (build.push value).settle.run values := by
  rw [← List.singleton_append, run_append]
  rfl

end Build

/-! ## A block of values -/

namespace Build

/-- A subtree of the given height is next. -/
structure Ready (build : Build α) (row : Nat) : Prop where
  incomplete : build.complete = none
  apart : ∀ other ∈ build.waiting, row ≤ other.level
  ground : build.base = 0 ∧ 0 < build.bottom ∨ build.base = 1 ∧ build.bottom = 0 ∧ 0 < row

/-- The build when a subtree of the given height is finished. -/
def grown (build : Build α) (row : Nat) (tree : Tree α) : Build α :=
  { build with
    base := if 2 ^ row ≤ build.bottom then 0 else 1
    bottom := build.bottom - 2 ^ row }.carry row tree build.waiting

/-- The values of a subtree, with as many of the bottom row as are left for it. -/
def blockSize (row bottom : Nat) : Nat := 2 ^ row - 1 + min bottom (2 ^ row)

/-- With a finished tree nothing is given up. -/
theorem settle_of_complete {build : Build α} {tree : Tree α}
    (complete : build.complete = some tree) : build.settle = build :=
  if_neg fun exhausted => by cases exhausted.1.symm.trans complete

theorem settle_carry (build : Build α) (level : Nat) (tree : Tree α) (waiting : List (Waiting α)) :
    (build.carry level tree waiting).settle = build.carry level tree waiting :=
  settle_of_complete (carry_complete ..)

/-- A leaf is a subtree. -/
theorem run_leaf {build : Build α} {row : Nat} (ready : build.Ready row)
    (lowest : row = build.base) (value : α) :
    build.run [value] = build.grown row (node (rowColor row) nil value nil) := by
  subst lowest
  have claimed : build.claim = { build with bottom := build.bottom - 1 } := by
    rw [claim_incomplete ready.incomplete, if_neg]
    rintro ⟨grounded, full⟩
    rcases ready.ground with ⟨-, left⟩ | ⟨raised, -⟩
    · exact absurd full (Nat.ne_of_gt left)
    · exact absurd grounded (by rw [raised]; decide)
  have placed : build.run [value] =
      { build with bottom := build.bottom - 1 }.carry build.base
        (node (rowColor build.base) nil value nil) build.waiting := by
    rw [run, List.foldl_cons, List.foldl_nil, push, claimed]
    rw [place_incomplete (show { build with bottom := build.bottom - 1 }.complete = none from
      ready.incomplete), settle_carry]
  rw [placed, grown]
  rcases ready.ground with ⟨grounded, left⟩ | ⟨raised, exhausted, -⟩
  · rw [if_pos (by rw [grounded]; exact left), grounded]
    rfl
  · rw [if_neg (by rw [exhausted, raised]; decide), raised, exhausted]
    rfl

/-- A value above a finished tree waits for the other subtree. -/
theorem settle_push_complete {build : Build α} {tree : Tree α}
    (complete : build.complete = some tree) (value : α) :
    (build.push value).settle =
      settle { build with
        level := build.base
        complete := none
        waiting := ⟨build.level, tree, value⟩ :: build.waiting } := by
  rw [push, claim_complete complete, place_complete complete]

theorem blockSize_succ (row bottom : Nat) :
    blockSize (row + 1) bottom =
      blockSize row bottom + (blockSize row (bottom - 2 ^ row) + 1) := by
  have positive := Nat.two_pow_pos row
  rw [blockSize, blockSize, blockSize, Nat.pow_succ]
  omega

/-- The build when a value waits above a finished subtree of the given height. -/
def between (build : Build α) (row : Nat) (left : Tree α) (value : α) : Build α where
  base := if 2 ^ row ≤ build.bottom then 0 else 1
  bottom := build.bottom - 2 ^ row
  level := if 2 ^ row ≤ build.bottom then 0 else 1
  complete := none
  waiting := ⟨row, left, value⟩ :: build.waiting

/-- The build before the right half of a subtree. -/
theorem run_grown_cons {build : Build α} {row : Nat}
    (apart : ∀ other ∈ build.waiting, row < other.level) (left : Tree α) (value : α)
    (values : List α) :
    (build.grown row left).run (value :: values) =
      (build.between row left value).settle.run values := by
  have grown_eq : build.grown row left =
      { base := if 2 ^ row ≤ build.bottom then 0 else 1
        bottom := build.bottom - 2 ^ row
        level := row
        complete := some left
        waiting := build.waiting } := by
    rw [grown, carry, absorb_apart apart]
  rw [run_cons, grown_eq, settle_push_complete rfl]
  rfl

/-- The right half is finished together with its parent. -/
theorem grown_succ {build next : Build α} {row : Nat} {left : Tree α} {value : α}
    (bottom : next.bottom = build.bottom - 2 ^ row)
    (waiting : next.waiting = ⟨row, left, value⟩ :: build.waiting) (right : Tree α) :
    next.grown row right =
      build.grown (row + 1) (node (rowColor (row + 1)) left value right) := by
  have full : 2 ^ row ≤ build.bottom - 2 ^ row ↔ 2 ^ (row + 1) ≤ build.bottom := by
    have positive := Nat.two_pow_pos row
    rw [Nat.pow_succ]
    omega
  rw [grown, grown, carry, carry, waiting, bottom, absorb_cons, Nat.pow_succ, Nat.mul_two,
    ← Nat.sub_sub]
  simp only [full, Nat.pow_succ, Nat.mul_two]

/-- The right half of a subtree, when its left half has used up the bottom row or has
left some of it. -/
theorem run_between {build : Build α} {row : Nat}
    (block : ∀ {build : Build α} {values : List α}, build.Ready row →
      values.length = blockSize row build.bottom →
      ∃ tree, Rows tree row ∧ tree.inorder = values ∧ build.run values = build.grown row tree)
    (ready : build.Ready (row + 1)) (ground : build.base = 1 → 0 < row) (left : Tree α) (value : α)
    {values : List α} (size : values.length = blockSize row (build.bottom - 2 ^ row)) :
    ∃ tree, Rows tree row ∧ tree.inorder = values ∧
      (build.between row left value).settle.run values =
        build.grown (row + 1) (node (rowColor (row + 1)) left value tree) := by
  have apart : ∀ other ∈ (build.between row left value).waiting, row ≤ other.level := by
    intro other member
    rcases List.mem_cons.mp member with rfl | member
    · exact Nat.le_refl _
    · exact Nat.le_of_succ_le (ready.apart other member)
  have follow {next : Build α} (bottom : next.bottom = build.bottom - 2 ^ row)
      (waiting : next.waiting = ⟨row, left, value⟩ :: build.waiting) (readyNext : next.Ready row) :
      ∃ tree, Rows tree row ∧ tree.inorder = values ∧ next.run values =
        build.grown (row + 1) (node (rowColor (row + 1)) left value tree) := by
    obtain ⟨tree, rows, inorder_eq, run_eq⟩ := block readyNext (by rw [size, bottom])
    exact ⟨tree, rows, inorder_eq, run_eq.trans (grown_succ bottom waiting tree)⟩
  have positive := Nat.two_pow_pos row
  rw [settle]
  by_cases exhausted : (build.between row left value).Exhausted
  · rw [if_pos exhausted]
    have full : build.bottom - 2 ^ row = 0 := exhausted.2.2
    cases row with
    | zero =>
        -- the last place of the bottom row is a left child without a sister
        have empty : values = [] := List.eq_nil_of_length_eq_zero (by rw [size, full]; rfl)
        have raised : (build.between 0 left value).raise =
            build.grown 1 (node (rowColor 1) left value nil) := by
          have used : ¬ 2 ^ 1 ≤ build.bottom := by omega
          have rest : build.bottom - 2 ^ 1 = build.bottom - 2 ^ 0 := by omega
          rw [grown, if_neg used, rest]
          rfl
        refine ⟨nil, .nil, empty.symm, ?_⟩
        rw [empty, raised]
        exact settle_carry _ _ _ _
    | succ row =>
        have raised : (build.between (row + 1) left value).raise =
            { build.between (row + 1) left value with base := 1, level := 1 } := rfl
        rw [raised]
        exact follow rfl rfl ⟨rfl, apart, .inr ⟨rfl, full, Nat.succ_pos _⟩⟩
  · rw [if_neg exhausted]
    refine follow rfl rfl ⟨rfl, apart, ?_⟩
    by_cases available : 2 ^ row ≤ build.bottom
    · have grounded : (build.between row left value).base = 0 := if_pos available
      exact .inl ⟨grounded, Nat.pos_of_ne_zero fun full => exhausted ⟨rfl, grounded, full⟩⟩
    · refine .inr ⟨if_neg available, Nat.sub_eq_zero_of_le (Nat.le_of_not_le available), ?_⟩
      rcases ready.ground with ⟨-, some_left⟩ | ⟨raised, -⟩
      · exact Nat.pos_of_ne_zero fun lowest => available (by rw [lowest]; exact some_left)
      · exact ground raised

/-- The values of a subtree build it. -/
theorem run_block {build : Build α} {row : Nat} {values : List α} (ready : build.Ready row)
    (size : values.length = blockSize row build.bottom) :
    ∃ tree, Rows tree row ∧ tree.inorder = values ∧ build.run values = build.grown row tree := by
  induction row generalizing build values with
  | zero =>
      obtain ⟨grounded, left⟩ : build.base = 0 ∧ 0 < build.bottom :=
        ready.ground.resolve_right fun raised => absurd raised.2.2 (by decide)
      have single : values.length = 1 := by
        rw [size, blockSize]
        omega
      obtain ⟨value, rfl⟩ := List.length_eq_one_iff.mp single
      exact ⟨_, .bottom value, rfl, run_leaf ready grounded.symm value⟩
  | succ row ih =>
      by_cases leaf : build.base = 1 ∧ row = 0
      · obtain ⟨raised, rfl⟩ := leaf
        have full : build.bottom = 0 := by
          rcases ready.ground with ⟨grounded, -⟩ | ⟨-, full, -⟩
          · exact absurd (grounded.symm.trans raised) (by decide)
          · exact full
        have single : values.length = 1 := by rw [size, full]; rfl
        obtain ⟨value, rfl⟩ := List.length_eq_one_iff.mp single
        exact ⟨_, .above value .nil .nil, rfl, run_leaf ready raised.symm value⟩
      have ground (raised : build.base = 1) : 0 < row :=
        Nat.pos_of_ne_zero fun lowest => leaf ⟨raised, lowest⟩
      have readyLeft : build.Ready row :=
        { incomplete := ready.incomplete
          apart := fun other member => Nat.le_of_succ_le (ready.apart other member)
          ground := ready.ground.imp_right fun raised => ⟨raised.1, raised.2.1, ground raised.1⟩ }
      rw [blockSize_succ] at size
      obtain ⟨left, rest, rfl, sizeLeft, sizeRest⟩ : ∃ left rest, values = left ++ rest ∧
          left.length = blockSize row build.bottom ∧
          rest.length = blockSize row (build.bottom - 2 ^ row) + 1 :=
        ⟨_, _, (List.take_append_drop (blockSize row build.bottom) values).symm,
          by rw [List.length_take]; omega, by rw [List.length_drop]; omega⟩
      obtain ⟨value, right, rfl⟩ := List.exists_cons_of_length_eq_add_one sizeRest
      obtain ⟨leftTree, rowsLeft, inorderLeft, runLeft⟩ := ih readyLeft sizeLeft
      obtain ⟨rightTree, rowsRight, inorderRight, runRight⟩ :=
        run_between ih ready ground leftTree value (Nat.succ.inj sizeRest)
      refine ⟨_, .above value rowsLeft rowsRight, ?_, ?_⟩
      · rw [inorder_node, inorderLeft, inorderRight]
      · rw [run_append, runLeft, run_grown_cons (fun other member => ready.apart other member),
          runRight]

end Build

/-! ## The whole tree -/

/-- There are values enough for the full rows. -/
theorem fullRows_le (count : Nat) : 2 ^ (count.size - 1) - 1 ≤ count := by
  by_cases positive : 0 < count
  · have sized : 0 < count.size := Nat.size_pos.mpr positive
    have low : 2 ^ (count.size - 1) ≤ count := Nat.lt_size.mp (by omega)
    omega
  · have zero : count = 0 := by omega
    rw [zero]
    exact Nat.le_refl _

/-- All rows but the bottom one are full. -/
theorem blockSize_bottomRow {count : Nat} (positive : 0 < count) :
    Build.blockSize (count.size - 1) (bottomRow count) = count ∧ 0 < bottomRow count := by
  have sized : 0 < count.size := Nat.size_pos.mpr positive
  have low : 2 ^ (count.size - 1) ≤ count := Nat.lt_size.mp (by omega)
  have high : count < 2 ^ (count.size - 1 + 1) := Nat.size_le.mp (by omega)
  rw [Nat.pow_succ] at high
  rw [Build.blockSize, bottomRow]
  omega

/-- The values are those of a block, which is all there is. -/
theorem run_start {values : List α} (nonempty : values ≠ []) :
    ∃ tree, Rows tree (values.length.size - 1) ∧ tree.inorder = values ∧
      (Build.start (bottomRow values.length)).run values =
        (Build.start (bottomRow values.length)).grown (values.length.size - 1) tree := by
  obtain ⟨size, left⟩ := blockSize_bottomRow (List.length_pos_iff.mpr nonempty)
  exact Build.run_block ⟨rfl, fun _ member => absurd member List.not_mem_nil, .inl ⟨rfl, left⟩⟩
    size.symm

theorem buildTree_eq {values : List α} (nonempty : values ≠ []) :
    ∃ tree, Rows tree (values.length.size - 1) ∧ tree.inorder = values ∧
      buildTree values = tree.paint .black := by
  obtain ⟨tree, rows, inorder_eq, run_eq⟩ := run_start nonempty
  refine ⟨tree, rows, inorder_eq, ?_⟩
  rw [Build.run] at run_eq
  rw [buildTree, ← Build.finish_settle, run_eq]
  rfl

theorem isRedBlack_buildTree (values : List α) : IsRedBlack (buildTree values) := by
  by_cases nonempty : values = []
  · rw [nonempty]
    exact ⟨rfl, 0, .nil⟩
  · obtain ⟨tree, rows, -, built⟩ := buildTree_eq nonempty
    rw [built]
    exact rows.isRedBlack

/-- No tree of the values is less deep. -/
theorem depth_buildTree (values : List α) : (buildTree values).depth = values.length.size := by
  by_cases nonempty : values = []
  · rw [nonempty]
    rfl
  · obtain ⟨tree, rows, inorder_eq, built⟩ := buildTree_eq nonempty
    have sized : 0 < values.length.size := Nat.size_pos.mpr (List.length_pos_iff.mpr nonempty)
    have room : values.length.size ≤ tree.depth := by
      rw [← inorder_eq]
      exact Nat.size_le.mpr (length_lt_two_pow_depth tree)
    have shallow := rows.depth_le
    rw [built, depth_paint]
    omega

end M2Handler.RedBlack

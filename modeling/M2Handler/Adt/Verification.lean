import M2Handler.Adt.Freeing
import M2Handler.Adt.Insertion

/-!
# The integrity check

`dict_verify` is right about every dictionary whose links form a tree: it accepts
exactly the red-black trees with strictly ascending keys and the right count.  An
empty dictionary also needs a sentinel that is its own parent, which
`dict_free_nodes` does not see to.
-/

namespace M2Handler.Adt

open M2Handler.Machine M2Handler.RedBlack M2Handler.RedBlack.Tree

variable {κ α : Type}

/-! ## The functions -/

/-- The loop of `verify_bintree` without duplicates. -/
def verifyBintreeLoop (compare : κ → κ → Int) : Nat → Pointer → DictM κ Int
  | 0, _ => diverge
  | fuel + 1, first =>
      if first = .null then pure 1
      else do
        let next ← dictNext first
        if next = .null then pure 1
        else
          let firstKey ← loadKey first
          let nextKey ← loadKey next
          if compare firstKey nextKey ≥ 0 then pure 0 else verifyBintreeLoop compare fuel next

def verifyBintree (compare : κ → κ → Int) : DictM κ Int := do
  let first ← dictFirst
  let fuel ← steps
  verifyBintreeLoop compare fuel first

/-- `verify_redblack`, for a tree of no more levels than the steps it gets. -/
def verifyRedblack : Nat → Pointer → DictM κ UInt32
  | 0, _ => diverge
  | fuel + 1, root =>
      if root ≠ .nil then do
        let left ← load root Dnode.left
        let heightLeft ← verifyRedblack fuel left
        let right ← load root Dnode.right
        let heightRight ← verifyRedblack fuel right
        if heightLeft = 0 ∨ heightRight = 0 then pure 0
        else if heightLeft ≠ heightRight then pure 0
        else
          let color ← load root Dnode.color
          if color = .red then
            let left ← load root Dnode.left
            let leftColor ← load left Dnode.color
            if leftColor ≠ .black then pure 0
            else
              let right ← load root Dnode.right
              let rightColor ← load right Dnode.color
              if rightColor ≠ .black then pure 0 else pure heightLeft
          else pure (heightLeft + 1)
      else pure 1

/-- `verify_node_count`. -/
def verifyNodeCount : Nat → Pointer → DictM κ UInt64
  | 0, _ => diverge
  | fuel + 1, root =>
      if root = .nil then pure 0
      else do
        let left ← load root Dnode.left
        let countLeft ← verifyNodeCount fuel left
        let right ← load root Dnode.right
        let countRight ← verifyNodeCount fuel right
        pure (1 + countLeft + countRight)

def dictVerify (compare : κ → κ → Int) : DictM κ Int := do
  let root ← dictRoot
  let rootColor ← load root Dnode.color
  if rootColor ≠ .black then pure 0
  else
    let nilColor ← load .nil Dnode.color
    if nilColor ≠ .black then pure 0
    else
      let right ← load .nil Dnode.right
      if right ≠ .nil then pure 0
      else
        let left ← load .nil Dnode.left
        let parent ← load left Dnode.parent
        if parent ≠ .nil then pure 0
        else
          let sorted ← verifyBintree compare
          if sorted = 0 then pure 0
          else
            let fuel ← steps
            let height ← verifyRedblack fuel root
            if height = 0 then pure 0
            else
              let count ← verifyNodeCount fuel root
              fun dict => .ok (if count ≠ dictCount dict then 0 else 1, dict)

/-! ## What the parts compute -/

def heightOf : RedBlack.Tree α → UInt32
  | .nil => 1
  | .node color left _ right =>
      if heightOf left = 0 ∨ heightOf right = 0 then 0
      else if heightOf left ≠ heightOf right then 0
      else if color = .red then
        if left.color ≠ .black then 0 else if right.color ≠ .black then 0 else heightOf left
      else heightOf left + 1

theorem toNat_height {height : Nat} (low : height ≤ 64) :
    (UInt32.ofNat (height + 1)).toNat = height + 1 :=
  UInt32.toNat_ofNat_of_lt' (show height + 1 < 4294967296 by omega)

/-- With the memory of a 64-bit machine the height does not wrap, and it is 0 only
for a tree that is not balanced. -/
theorem heightOf_eq {tree : RedBlack.Tree α} (size : tree.inorder.length < 2 ^ 64) :
    (∃ height, Balanced tree height ∧ height ≤ 64 ∧ heightOf tree = UInt32.ofNat (height + 1)) ∨
      (∀ height, ¬ Balanced tree height) ∧ heightOf tree = 0 := by
  induction tree with
  | nil => exact .inl ⟨0, .nil, Nat.zero_le _, rfl⟩
  | node color left value right ihLeft ihRight =>
      have width := size
      rw [inorder_node, List.length_append, List.length_cons] at width
      rw [heightOf]
      rcases ihLeft (by omega) with ⟨low, balancedLeft, lowLeft, left_eq⟩ | ⟨unbalanced, zero⟩
      swap
      · refine .inr ⟨fun height balanced => ?_, if_pos (.inl zero)⟩
        cases balanced with
        | red balanced _ _ _ => exact unbalanced _ balanced
        | black balanced _ => exact unbalanced _ balanced
      rcases ihRight (by omega) with ⟨high, balancedRight, lowRight, right_eq⟩ | ⟨unbalanced, zero⟩
      swap
      · refine .inr ⟨fun height balanced => ?_, if_pos (.inr zero)⟩
        cases balanced with
        | red _ balanced _ _ => exact unbalanced _ balanced
        | black _ balanced => exact unbalanced _ balanced
      have positive {height : Nat} (bound : height ≤ 64) : UInt32.ofNat (height + 1) ≠ 0 := by
        intro zero
        have wrapped := congrArg UInt32.toNat zero
        rw [toNat_height bound] at wrapped
        cases wrapped
      rw [left_eq, right_eq, if_neg (not_or.mpr ⟨positive lowLeft, positive lowRight⟩)]
      by_cases same : low = high
      swap
      · have differ : UInt32.ofNat (low + 1) ≠ UInt32.ofNat (high + 1) := by
          intro equal
          have heights := congrArg UInt32.toNat equal
          rw [toNat_height lowLeft, toNat_height lowRight] at heights
          exact same (Nat.succ.inj heights)
        refine .inr ⟨fun height balanced => ?_, if_pos differ⟩
        cases balanced with
        | red first second _ _ =>
            exact same ((balancedLeft.unique first).trans (second.unique balancedRight))
        | black first second =>
            exact same ((balancedLeft.unique first).trans (second.unique balancedRight))
      subst same
      rw [if_neg (not_not.mpr rfl)]
      cases color with
      | red =>
          rw [if_pos rfl]
          by_cases leftBlack : left.color = .black
          swap
          · refine .inr ⟨fun height balanced => ?_, if_pos leftBlack⟩
            cases balanced with
            | red _ _ isBlack _ => exact leftBlack isBlack
          by_cases rightBlack : right.color = .black
          swap
          · refine .inr ⟨fun height balanced => ?_, by rw [if_neg (not_not.mpr leftBlack), if_pos rightBlack]⟩
            cases balanced with
            | red _ _ _ isBlack => exact rightBlack isBlack
          rw [if_neg (not_not.mpr leftBlack), if_neg (not_not.mpr rightBlack)]
          exact .inl ⟨low, .red balancedLeft balancedRight leftBlack rightBlack, lowLeft, rfl⟩
      | black =>
          rw [if_neg (by decide)]
          have balanced : Balanced (.node .black left value right) (low + 1) :=
            .black balancedLeft balancedRight
          exact .inl ⟨low + 1, balanced, balanced.height_le size, (UInt32.ofNat_add ..).symm⟩

/-! ## Reading the tree -/

theorem rewrites_verifyRedblack {tree : RedBlack.Tree (Nat × κ)} (path : List (Frame (Nat × κ)))
    {fuel : Nat} (enough : tree.inorder.length < fuel) :
    Rewrites (verifyRedblack fuel (address tree)) (plug path tree) (heightOf tree)
      (plug path tree) := by
  induction tree generalizing path fuel with
  | nil =>
      obtain ⟨fuel, rfl⟩ : ∃ less, fuel = less + 1 := ⟨fuel - 1, by omega⟩
      exact rewrites_pure _ _
  | node color left entry right ihLeft ihRight =>
      obtain ⟨fuel, rfl⟩ : ∃ less, fuel = less + 1 := ⟨fuel - 1, by omega⟩
      rw [inorder_node, List.length_append, List.length_cons] at enough
      have start : address (.node color left entry right) ≠ .nil := Pointer.node_ne_nil _
      have toLeft : Rewrites (load (.node entry.1) Dnode.left)
          (plug path (.node color left entry right)) (address left)
          (plug path (.node color left entry right)) :=
        rewrites_load path .left color left right entry Dnode.left
      have toRight : Rewrites (load (.node entry.1) Dnode.right)
          (plug path (.node color left entry right)) (address right)
          (plug path (.node color left entry right)) :=
        rewrites_load path .left color left right entry Dnode.right
      have read : Rewrites (load (.node entry.1) Dnode.color)
          (plug path (.node color left entry right)) color
          (plug path (.node color left entry right)) :=
        rewrites_color path (.node color left entry right)
      have leftColor := rewrites_color (⟨.left, color, entry, right⟩ :: path) left
      have rightColor := rewrites_color (⟨.right, color, entry, left⟩ :: path) right
      unfold verifyRedblack
      rw [if_pos start, heightOf]
      refine toLeft.bind ((ihLeft (⟨.left, color, entry, right⟩ :: path) (by omega)).bind ?_)
      refine toRight.bind ((ihRight (⟨.right, color, entry, left⟩ :: path) (by omega)).bind ?_)
      by_cases zero : heightOf left = 0 ∨ heightOf right = 0
      · rw [if_pos zero, if_pos zero]
        exact rewrites_pure _ _
      rw [if_neg zero, if_neg zero]
      by_cases differ : heightOf left ≠ heightOf right
      · rw [if_pos differ, if_pos differ]
        exact rewrites_pure _ _
      rw [if_neg differ, if_neg differ]
      refine read.bind ?_
      by_cases isRed : color = .red
      swap
      · rw [if_neg isRed, if_neg isRed]
        exact rewrites_pure _ _
      rw [if_pos isRed, if_pos isRed]
      refine toLeft.bind (leftColor.bind ?_)
      by_cases leftRed : left.color ≠ .black
      · rw [if_pos leftRed, if_pos leftRed]
        exact rewrites_pure _ _
      rw [if_neg leftRed, if_neg leftRed]
      refine toRight.bind (rightColor.bind ?_)
      by_cases rightRed : right.color ≠ .black
      · rw [if_pos rightRed, if_pos rightRed]
        exact rewrites_pure _ _
      · rw [if_neg rightRed, if_neg rightRed]
        exact rewrites_pure _ _

theorem rewrites_verifyNodeCount {tree : RedBlack.Tree (Nat × κ)}
    (path : List (Frame (Nat × κ))) {fuel : Nat} (enough : tree.inorder.length < fuel) :
    Rewrites (verifyNodeCount fuel (address tree)) (plug path tree)
      (UInt64.ofNat tree.inorder.length) (plug path tree) := by
  induction tree generalizing path fuel with
  | nil =>
      obtain ⟨fuel, rfl⟩ : ∃ less, fuel = less + 1 := ⟨fuel - 1, by omega⟩
      exact rewrites_pure _ _
  | node color left entry right ihLeft ihRight =>
      obtain ⟨fuel, rfl⟩ : ∃ less, fuel = less + 1 := ⟨fuel - 1, by omega⟩
      have start : address (.node color left entry right) ≠ .nil := Pointer.node_ne_nil _
      have sum : UInt64.ofNat (RedBlack.Tree.node color left entry right).inorder.length =
          1 + UInt64.ofNat left.inorder.length + UInt64.ofNat right.inorder.length := by
        rw [inorder_node, List.length_append, List.length_cons, UInt64.ofNat_add,
          UInt64.ofNat_add]
        show _ + (_ + 1) = _
        ac_rfl
      rw [inorder_node, List.length_append, List.length_cons] at enough
      unfold verifyNodeCount
      rw [if_neg start, sum]
      refine (rewrites_load path .left color left right entry Dnode.left).bind ?_
      refine (ihLeft (⟨.left, color, entry, right⟩ :: path) (by omega)).bind ?_
      refine (rewrites_load path .left color left right entry Dnode.right).bind ?_
      refine (ihRight (⟨.right, color, entry, left⟩ :: path) (by omega)).bind ?_
      exact rewrites_pure _ _

/-- Every entry compares below the next one. -/
def Ascending (compare : κ → κ → Int) (entries : List (Nat × κ)) : Prop :=
  entries.IsChain fun first second => compare first.2 second.2 < 0

instance (compare : κ → κ → Int) (entries : List (Nat × κ)) :
    Decidable (Ascending compare entries) :=
  inferInstanceAs (Decidable (entries.IsChain _))

/-- The loop goes through the entries from any of them. -/
theorem rewrites_verifyBintreeLoop (compare : κ → κ → Int) {tree : RedBlack.Tree (Nat × κ)}
    (distinct : (addresses tree).Nodup) {front back : List (Nat × κ)} {entry : Nat × κ}
    (place : tree.inorder = front ++ entry :: back) {fuel : Nat} (enough : back.length < fuel) :
    Rewrites (verifyBintreeLoop compare fuel (.node entry.1)) tree
      (if Ascending compare (entry :: back) then 1 else 0) tree := by
  induction back generalizing front entry fuel with
  | nil =>
      obtain ⟨fuel, rfl⟩ : ∃ less, fuel = less + 1 := ⟨fuel - 1, by omega⟩
      obtain ⟨path, color, left, right, rfl, -, behind⟩ := exists_path place
      unfold verifyBintreeLoop
      rw [if_neg (by simp)]
      have next := rewrites_dictNext path color left right entry distinct
      rw [behind] at next
      exact next.bind (rewrites_pure _ _)
  | cons second back ih =>
      obtain ⟨fuel, rfl⟩ : ∃ less, fuel = less + 1 := ⟨fuel - 1, by omega⟩
      rw [List.length_cons] at enough
      have placeSecond : tree.inorder = (front ++ [entry]) ++ second :: back := by
        rw [place, List.append_assoc]
        rfl
      have less : back.length < fuel := by omega
      have rest := ih placeSecond less
      have secondKey : Rewrites (loadKey (.node second.1)) tree second.2 tree := by
        obtain ⟨path, color, left, right, rfl, -, -⟩ := exists_path placeSecond
        exact rewrites_loadKey path .left color left right second
      obtain ⟨path, color, left, right, rfl, -, behind⟩ := exists_path place
      have next := rewrites_dictNext path color left right entry distinct
      rw [behind] at next
      unfold verifyBintreeLoop
      rw [if_neg (by simp)]
      refine next.bind ?_
      rw [List.head?_cons, pointerTo, if_neg (by simp)]
      refine (rewrites_loadKey path .left color left right entry).bind (secondKey.bind ?_)
      by_cases smaller : compare entry.2 second.2 < 0
      · rw [if_neg (not_le.mpr smaller)]
        have same : Ascending compare (entry :: second :: back) ↔
            Ascending compare (second :: back) := by
          simp [Ascending, smaller]
        simp only [same]
        exact rest
      · rw [if_pos (not_lt.mp smaller), if_neg]
        · exact rewrites_pure _ _
        · simp [Ascending, smaller]

theorem rewrites_verifyBintree (compare : κ → κ → Int) {tree : RedBlack.Tree (Nat × κ)}
    (distinct : (addresses tree).Nodup) :
    Rewrites (verifyBintree compare) tree (if Ascending compare tree.inorder then 1 else 0)
      tree := by
  unfold verifyBintree
  refine (rewrites_dictFirst tree).bind (rewrites_steps fun fuel enough => ?_)
  cases entries : tree.inorder with
  | nil =>
      obtain ⟨fuel, rfl⟩ : ∃ less, fuel = less + 1 := ⟨fuel - 1, by omega⟩
      exact rewrites_pure _ _
  | cons entry back =>
      rw [entries, List.length_cons] at enough
      have place : tree.inorder = [] ++ entry :: back := entries
      exact rewrites_verifyBintreeLoop compare distinct place (by omega)

/-! ## The check -/

structure Verified (compare : κ → κ → Int) (dict : Dict κ) (tree : RedBlack.Tree (Nat × κ)) :
    Prop where
  redBlack : IsRedBlack tree
  ascending : Ascending compare tree.inorder
  counted : dictCount dict = UInt64.ofNat tree.inorder.length
  /-- The root has no parent, and without a root it is the sentinel that has none. -/
  rooted : (dict.memory (address tree)).map Dnode.parent = some .nil

/-- The check does not change the tree, and its answer is right.  A tree of `2 ^ 64`
nodes in ascending order has no room in memory. -/
theorem dictVerify_run (compare : κ → κ → Int) {dict : Dict κ} {tree : RedBlack.Tree (Nat × κ)}
    (holds : Holds dict tree)
    (size : Ascending compare tree.inorder → tree.inorder.length < 2 ^ 64) :
    ∃ answer dict', dictVerify compare dict = .ok (answer, dict') ∧ Holds dict' tree ∧
      (answer = 0 ∨ answer = 1) ∧ (answer = 1 ↔ Verified compare dict tree) := by
  obtain ⟨sentinel, found, left, right, isBlack⟩ := holds.rooted
  obtain ⟨root, foundRoot, rootColor⟩ := (show Around dict.memory [] (address tree) from
    holds.rooted).record holds.stored
  have rootRun : dictRoot dict = .ok (address tree, dict) := by
    rw [dictRoot, load_run found, left]
  have rejects {dict' : Dict κ} (held : Holds dict' tree) (not : ¬ Verified compare dict tree) :
      ∃ answer dict'', (pure 0 : DictM κ Int) dict' = .ok (answer, dict'') ∧ Holds dict'' tree ∧
        (answer = 0 ∨ answer = 1) ∧ (answer = 1 ↔ Verified compare dict tree) :=
    ⟨0, dict', rfl, held, .inl rfl, fun one => absurd one (by decide), fun verified =>
      absurd verified not⟩
  rw [dictVerify, action_bind rootRun, load_bind foundRoot, rootColor]
  by_cases rootBlack : tree.color = .black
  swap
  · rw [if_pos rootBlack]
    exact rejects holds fun verified => rootBlack verified.redBlack.1
  rw [if_neg (not_not.mpr rootBlack), load_bind found, isBlack, if_neg (by decide),
    load_bind found, right, if_neg (by decide), load_bind found, left, load_bind foundRoot]
  by_cases orphan : root.parent = .nil
  swap
  · rw [if_pos orphan]
    refine rejects holds fun verified => orphan ?_
    have parent := verified.rooted
    rw [foundRoot] at parent
    exact Option.some.inj parent
  obtain ⟨dict₁, sortedRun, held₁, untouched₁⟩ :=
    (rewrites_verifyBintree compare holds.distinct).2 dict holds
  rw [if_neg (not_not.mpr orphan), action_bind sortedRun]
  by_cases ascending : Ascending compare tree.inorder
  swap
  · rw [if_neg ascending, if_pos rfl]
    exact rejects held₁ fun verified => ascending verified.ascending
  have enough : tree.inorder.length < dict₁.next + 1 := Nat.lt_succ_of_le held₁.length_le
  obtain ⟨dict₂, heightRun, held₂, untouched₂⟩ :=
    (rewrites_verifyRedblack [] enough).2 dict₁ held₁
  rw [if_pos ascending, if_neg (by decide), steps_bind, action_bind heightRun]
  rcases heightOf_eq (size ascending) with ⟨height, balanced, low, height_eq⟩ | ⟨unbalanced, zero⟩
  swap
  · rw [if_pos zero]
    refine rejects held₂ fun verified => ?_
    obtain ⟨height, balanced⟩ := verified.redBlack.2
    exact unbalanced height balanced
  obtain ⟨dict₃, countRun, held₃, untouched₃⟩ :=
    (rewrites_verifyNodeCount [] enough).2 dict₂ held₂
  have positive : heightOf tree ≠ 0 := by
    intro zero
    have wrapped := congrArg UInt32.toNat (height_eq.symm.trans zero)
    rw [toNat_height low] at wrapped
    cases wrapped
  have same : dictCount dict₃ = dictCount dict :=
    untouched₃.nodecount.trans (untouched₂.nodecount.trans untouched₁.nodecount)
  rw [if_neg positive, action_bind countRun, same]
  by_cases counted : UInt64.ofNat tree.inorder.length ≠ dictCount dict
  · rw [if_pos counted]
    exact rejects held₃ fun verified => counted verified.counted.symm
  · rw [if_neg counted]
    refine ⟨1, dict₃, rfl, held₃, .inr rfl, fun _ => ?_, fun _ => rfl⟩
    refine ⟨⟨rootBlack, height, balanced⟩, ascending, (not_not.mp counted).symm, ?_⟩
    rw [foundRoot, Option.map_some, orphan]

/-! ## A dictionary whose nodes are freed -/

/-- `dict_free_nodes` leaves the parent of the sentinel as it was, and the check accepts
the empty dictionary only if that was the sentinel. -/
theorem freed_verifies_iff (compare : κ → κ → Int) {dict : Dict κ}
    {tree : RedBlack.Tree (Nat × κ)} (holds : Holds dict tree) :
    ∃ freed answer dict', dictFreeNodes dict = .ok ((), freed) ∧
      (freed.memory .nil).map Dnode.parent = (dict.memory .nil).map Dnode.parent ∧
      dictVerify compare freed = .ok (answer, dict') ∧ (answer = 0 ∨ answer = 1) ∧
        (answer = 1 ↔ (dict.memory .nil).map Dnode.parent = some .nil) := by
  obtain ⟨freed, run, held, count, -, -, parent⟩ := dictFreeNodes_run holds
  obtain ⟨answer, dict', verified, -, binary, iff⟩ :=
    dictVerify_run compare held fun _ => Nat.two_pow_pos 64
  refine ⟨freed, answer, dict', run, parent, verified, binary,
    iff.trans ⟨fun accepted => ?_, fun own => ?_⟩⟩
  · rw [← parent]
    exact accepted.rooted
  · exact ⟨⟨rfl, 0, .nil⟩, List.IsChain.nil, count, parent.trans own⟩

/-- Three insertions in ascending order, which rotate the tree around the sentinel. -/
def insertThree : DictM Int Int := do
  let _ ← dictAllocInsert (· - ·) 1
  let _ ← dictAllocInsert (· - ·) 2
  dictAllocInsert (· - ·) 3

theorem freed_verifies_iff_three :
    ∃ dict freed dict', insertThree dictInit = .ok (1, dict) ∧
      dictFreeNodes dict = .ok ((), freed) ∧
      (freed.memory .nil).map Dnode.parent = some (.node 0) ∧
      dictVerify (· - ·) freed = .ok (0, dict') := by
  have start : Holds (dictInit : Dict Int) .nil :=
    { stored := trivial
      rooted := ⟨_, rfl, rfl, rfl, rfl⟩
      distinct := List.nodup_nil
      allocated := fun _ member => absurd member List.not_mem_nil }
  have empty : IsRedBlack (RedBlack.Tree.nil : RedBlack.Tree (Nat × Int)) := ⟨rfl, 0, .nil⟩
  obtain ⟨one, runOne, holdsOne, -⟩ := dictAllocInsert_run (· - ·) 1 start empty
  have treeOne := isRedBlack_insert empty (isBelow (· - ·) 1)
    ((dictInit : Dict Int).next, (1 : Int))
  obtain ⟨two, runTwo, holdsTwo, -⟩ := dictAllocInsert_run (· - ·) 2 holdsOne treeOne
  have treeTwo := isRedBlack_insert treeOne (isBelow (· - ·) 2) (one.next, (2 : Int))
  obtain ⟨three, runThree, holdsThree, -⟩ := dictAllocInsert_run (· - ·) 3 holdsTwo treeTwo
  have run : insertThree dictInit = .ok (1, three) := by
    rw [insertThree, action_bind runOne, action_bind runTwo, runThree]
  have rotated : (insertThree dictInit).map (fun result =>
      (result.2.memory .nil).map Dnode.parent) = .ok (some (.node 0)) := by
    decide +kernel
  rw [run] at rotated
  obtain ⟨freed, answer, dict', runFree, kept, verified, binary, iff⟩ :=
    freed_verifies_iff (· - ·) holdsThree
  have stale : (three.memory .nil).map Dnode.parent = some (.node 0) := Except.ok.inj rotated
  have rejected : answer = 0 := binary.resolve_right fun accepted => by
    have own := iff.mp accepted
    rw [stale] at own
    cases own
  rw [rejected] at verified
  exact ⟨three, freed, dict', run, runFree, kept.trans stale, verified⟩

end M2Handler.Adt

import M2Handler.Adt.Traversal

/-!
# The traversal that destroys the nodes

`safe_traverse` walks over the tree without a stack and calls a function on every
node after both of its subtrees, when nothing else reads the node any more.  So the
function may free it, and `dict_free_nodes` frees them all.
-/

namespace M2Handler.Adt

open M2Handler.Machine M2Handler.RedBlack M2Handler.RedBlack.Tree

variable {κ α : Type}

/-! ## The functions -/

/-- From where `safe_traverse` came to the current node. -/
inductive CameFrom where
  | fromParent
  | fromLeft
  | fromRight

section Traverse

variable (func : Pointer → DictM κ Unit)

/-- `case from_right:` the node is done. -/
def leaveNode (current : Pointer) : DictM κ (Pointer × CameFrom) := do
  let parent ← load current Dnode.parent
  let left ← load parent Dnode.left
  let cameFrom := if current = left then CameFrom.fromLeft else CameFrom.fromRight
  let next ← load current Dnode.parent
  func current
  pure (next, cameFrom)

/-- `case from_left:` the right subtree is next. -/
def turnRight (current : Pointer) : DictM κ (Pointer × CameFrom) := do
  let right ← load current Dnode.right
  if right ≠ .nil then pure (right, .fromParent) else leaveNode func current

/-- The `switch`, whose cases fall through. -/
def traverseNode (current : Pointer) : CameFrom → DictM κ (Pointer × CameFrom)
  | .fromParent => do
      let left ← load current Dnode.left
      if left ≠ .nil then pure (left, .fromParent) else turnRight func current
  | .fromLeft => turnRight func current
  | .fromRight => leaveNode func current

def safeTraverseLoop : Nat → Pointer → CameFrom → DictM κ Unit
  | 0, _, _ => diverge
  | fuel + 1, current, cameFrom =>
      if current = .nil then pure ()
      else do
        let (next, cameFrom) ← traverseNode func current cameFrom
        safeTraverseLoop fuel next cameFrom

/-- `safe_traverse`, which enters and leaves every node once. -/
def safeTraverse : DictM κ Unit := do
  let current ← dictRoot
  let fuel ← steps
  safeTraverseLoop func (2 * fuel) current .fromParent

end Traverse

def dictFreeNodes : DictM κ Unit := do
  safeTraverse freeDict
  modify fun dict => { dict with nodecount := 0 }
  store .nil (Dnode.setChild .left .nil)
  store .nil (Dnode.setChild .right .nil)

/-! ## The order of the calls -/

def postorder : RedBlack.Tree α → List α
  | .nil => []
  | .node _ left value right => postorder left ++ postorder right ++ [value]

theorem postorder_perm (tree : RedBlack.Tree α) : (postorder tree).Perm tree.inorder := by
  induction tree with
  | nil => exact .nil
  | node color left value right ihLeft ihRight =>
      rw [postorder, inorder_node, List.append_assoc]
      exact ihLeft.append ((List.perm_append_singleton _ _).trans (ihRight.cons value))

/-- The function returns when it is called on a node, and changes no other. -/
def Touches (func : Pointer → DictM κ Unit) : Prop :=
  ∀ dict a node key, dict.memory (.node a) = some node → node.key = some key →
    ∃ dict', func (.node a) dict = .ok ((), dict') ∧
      ∀ pointer, pointer ≠ .node a → dict'.memory pointer = dict.memory pointer

def visitAll (func : Pointer → DictM κ Unit) : List (Nat × κ) → DictM κ Unit
  | [] => pure ()
  | entry :: entries => do
      func (.node entry.1)
      visitAll func entries

theorem visitAll_append (func : Pointer → DictM κ Unit) (first second : List (Nat × κ)) :
    visitAll func (first ++ second) = visitAll func first >>= fun _ => visitAll func second := by
  induction first with
  | nil => rfl
  | cons entry first ih => rw [List.cons_append, visitAll, ih, visitAll, bind_assoc]

theorem visitAll_concat (func : Pointer → DictM κ Unit) {entries : List (Nat × κ)}
    {entry : Nat × κ} {dict between dict' : Dict κ}
    (run : visitAll func entries dict = .ok ((), between))
    (last : func (.node entry.1) between = .ok ((), dict')) :
    visitAll func (entries ++ [entry]) dict = .ok ((), dict') := by
  rw [visitAll_append, action_bind run, visitAll, action_bind last]
  rfl

/-- The nodes above a subtree, and those that come after it: the ones to the left of
the path are done. -/
def Standing (memory : Pointer → Option (Dnode κ)) : List (Frame (Nat × κ)) → Pointer → Prop
  | [], root => ∃ sentinel, memory .nil = some sentinel ∧ sentinel.left = root
  | frame :: path, hole =>
      memory (.node frame.value.1) =
          some (Dnode.linked frame.side hole (address frame.sibling) (above path) frame.color
            frame.value.2) ∧
        (frame.side = .left → Stored memory (.node frame.value.1) frame.sibling) ∧
        Standing memory path (.node frame.value.1)

theorem Standing.congr {memory memory' : Pointer → Option (Dnode κ)}
    {path : List (Frame (Nat × κ))} {hole : Pointer} (standing : Standing memory path hole)
    (same : ∀ a ∈ surroundings path, memory' (.node a) = memory (.node a))
    (sentinel : memory' .nil = memory .nil) : Standing memory' path hole := by
  induction path generalizing hole with
  | nil =>
      obtain ⟨old, found, left⟩ := standing
      exact ⟨old, sentinel.trans found, left⟩
  | cons frame path ih =>
      obtain ⟨record, sibling, standing⟩ := standing
      refine ⟨?_, fun onLeft => (sibling onLeft).congr ?_, ih standing ?_⟩
      · rw [same _ (mem_surroundings_cons.mpr (.inl rfl)), record]
      · exact fun a member => same a (mem_surroundings_cons.mpr (.inr (.inl member)))
      · exact fun a member => same a (mem_surroundings_cons.mpr (.inr (.inr member)))

/-- From where the traversal comes back to the parent of a subtree. -/
def cameFrom : List (Frame (Nat × κ)) → CameFrom
  | [] => .fromLeft
  | frame :: _ =>
      match frame.side with
      | .left => .fromLeft
      | .right => .fromRight

/-- One round of the loop. -/
theorem safeTraverseLoop_step {func : Pointer → DictM κ Unit} {a : Nat} {came came' : CameFrom}
    {next : Pointer} {dict dict' : Dict κ}
    (run : traverseNode func (.node a) came dict = .ok ((next, came'), dict')) (fuel : Nat) :
    safeTraverseLoop func (fuel + 1) (.node a) came dict =
      safeTraverseLoop func fuel next came' dict' := by
  rw [safeTraverseLoop, if_neg (Pointer.node_ne_nil a), action_bind run]

/-- The traversal of a subtree: it comes to the root from the parent and goes back to
the parent when all nodes are done, and no other node changes. -/
structure Visits (func : Pointer → DictM κ Unit) (path : List (Frame (Nat × κ)))
    (tree : RedBlack.Tree (Nat × κ)) (dict dict' : Dict κ) : Prop where
  calls : visitAll func (postorder tree) dict = .ok ((), dict')
  others : ∀ pointer, (∀ a ∈ addresses tree, pointer ≠ .node a) →
    dict'.memory pointer = dict.memory pointer
  loops : ∀ fuel, safeTraverseLoop func (fuel + 2 * tree.inorder.length) (address tree) .fromParent
      dict = safeTraverseLoop func (fuel + 1) (above path) (cameFrom path) dict'

section Visit

variable {func : Pointer → DictM κ Unit} (touches : Touches func)
  {path : List (Frame (Nat × κ))} {entry : Nat × κ} {dict : Dict κ}

/-- The parent tells on which side a node is. -/
theorem Standing.parent (standing : Standing dict.memory path (.node entry.1))
    (apart : entry.1 ∉ surroundings path) :
    ∃ parent, dict.memory (above path) = some parent ∧
      (if Pointer.node entry.1 = parent.left then CameFrom.fromLeft else CameFrom.fromRight) =
        cameFrom path := by
  cases path with
  | nil =>
      obtain ⟨sentinel, found, left⟩ := standing
      exact ⟨sentinel, found, if_pos left.symm⟩
  | cons frame path =>
      obtain ⟨side, color, value, sibling⟩ := frame
      refine ⟨_, standing.1, ?_⟩
      cases side with
      | left => exact if_pos rfl
      | right =>
          exact if_neg (node_ne_address fun inside =>
            apart (mem_surroundings_cons.mpr (.inr (.inl inside))))

include touches

/-- A node is left for its parent after the call. -/
theorem leaveNode_run {node : Dnode κ} (found : dict.memory (.node entry.1) = some node)
    (key : node.key = some entry.2) (up : node.parent = above path)
    (standing : Standing dict.memory path (.node entry.1)) (apart : entry.1 ∉ surroundings path) :
    ∃ dict', leaveNode func (.node entry.1) dict = .ok ((above path, cameFrom path), dict') ∧
      func (.node entry.1) dict = .ok ((), dict') ∧
      ∀ pointer, pointer ≠ .node entry.1 → dict'.memory pointer = dict.memory pointer := by
  obtain ⟨parent, foundParent, side⟩ := standing.parent apart
  obtain ⟨dict', run, others⟩ := touches dict entry.1 node entry.2 found key
  refine ⟨dict', ?_, run, others⟩
  rw [leaveNode, load_bind found, up, load_bind foundParent, load_bind found, action_bind run, side,
    up]
  rfl

omit touches

variable {color : Color} {left right : RedBlack.Tree (Nat × κ)}

/-- The left subtree is done, if there is one, and the traversal is at the node. -/
theorem left_done
    (record : dict.memory (.node entry.1) =
      some (Dnode.linked .left (address left) (address right) (above path) color entry.2))
    (visits : left ≠ .nil →
      ∃ dict', Visits func (⟨.left, color, entry, right⟩ :: path) left dict dict') :
    ∃ dict' came, visitAll func (postorder left) dict = .ok ((), dict') ∧
      (∀ pointer, (∀ a ∈ addresses left, pointer ≠ .node a) →
        dict'.memory pointer = dict.memory pointer) ∧
      traverseNode func (.node entry.1) came dict' = turnRight func (.node entry.1) dict' ∧
      ∀ fuel, safeTraverseLoop func (fuel + 1 + 2 * left.inorder.length) (.node entry.1)
          .fromParent dict = safeTraverseLoop func (fuel + 1) (.node entry.1) came dict' := by
  by_cases empty : left = .nil
  · subst empty
    refine ⟨dict, .fromParent, rfl, fun _ _ => rfl, ?_, fun fuel => rfl⟩
    rw [traverseNode, load_bind record]
    exact congrFun (if_neg (not_not.mpr rfl)) dict
  · obtain ⟨dict', calls, others, loops⟩ := visits empty
    obtain ⟨a, -, root⟩ := exists_address empty
    have down : traverseNode func (.node entry.1) .fromParent dict =
        .ok ((address left, .fromParent), dict) := by
      rw [traverseNode, load_bind record]
      exact congrFun (if_pos (by rw [root]; exact Pointer.node_ne_nil a)) dict
    refine ⟨dict', .fromLeft, calls, others, rfl, fun fuel => ?_⟩
    rw [Nat.add_right_comm, safeTraverseLoop_step down, loops]
    rfl

/-- The right subtree is done, if there is one, and the traversal is at the node. -/
theorem right_done {came : CameFrom}
    (record : dict.memory (.node entry.1) =
      some (Dnode.linked .left (address left) (address right) (above path) color entry.2))
    (turned : traverseNode func (.node entry.1) came dict = turnRight func (.node entry.1) dict)
    (visits : right ≠ .nil →
      ∃ dict', Visits func (⟨.right, color, entry, left⟩ :: path) right dict dict') :
    ∃ dict' came', visitAll func (postorder right) dict = .ok ((), dict') ∧
      (∀ pointer, (∀ a ∈ addresses right, pointer ≠ .node a) →
        dict'.memory pointer = dict.memory pointer) ∧
      traverseNode func (.node entry.1) came' dict' = leaveNode func (.node entry.1) dict' ∧
      ∀ fuel, safeTraverseLoop func (fuel + 1 + 2 * right.inorder.length) (.node entry.1) came
          dict = safeTraverseLoop func (fuel + 1) (.node entry.1) came' dict' := by
  by_cases empty : right = .nil
  · subst empty
    refine ⟨dict, came, rfl, fun _ _ => rfl, ?_, fun fuel => rfl⟩
    rw [turned, turnRight, load_bind record]
    exact congrFun (if_neg (not_not.mpr rfl)) dict
  · obtain ⟨dict', calls, others, loops⟩ := visits empty
    obtain ⟨a, -, root⟩ := exists_address empty
    have down : traverseNode func (.node entry.1) came dict =
        .ok ((address right, .fromParent), dict) := by
      rw [turned, turnRight, load_bind record]
      have nonnil : address right ≠ .nil := by
        rw [root]
        exact Pointer.node_ne_nil a
      exact congrFun (if_pos nonnil) dict
    refine ⟨dict', .fromRight, calls, others, rfl, fun fuel => ?_⟩
    rw [Nat.add_right_comm, safeTraverseLoop_step down, loops]
    rfl

include touches

/-- A subtree is visited as a whole. -/
theorem exists_visits {tree : RedBlack.Tree (Nat × κ)} (nonempty : tree ≠ .nil)
    (stored : Stored dict.memory (above path) tree)
    (standing : Standing dict.memory path (address tree))
    (distinct : (addresses (plug path tree)).Nodup) :
    ∃ dict', Visits func path tree dict dict' := by
  induction tree generalizing path dict with
  | nil => exact absurd rfl nonempty
  | node color left entry right ihLeft ihRight =>
      obtain ⟨record, storedLeft, storedRight⟩ := stored
      obtain ⟨distinctNode, -, outside⟩ := nodup_addresses_plug.mp distinct
      change (addresses (join .left color left entry right)).Nodup at distinctNode
      obtain ⟨notLeft, notRight, -, -, apart⟩ := nodup_addresses_join.mp distinctNode
      have away (a : Nat) (member : a = entry.1 ∨ a ∈ addresses left ∨ a ∈ addresses right) :
          a ∉ surroundings path := outside a (mem_addresses_node.mpr member)
      obtain ⟨dict₁, came₁, callsLeft, othersLeft, turned, loopsLeft⟩ :=
        left_done record fun some => ihLeft some storedLeft
          ⟨record, fun _ => storedRight, standing⟩ distinct
      have record₁ := (othersLeft (.node entry.1) fun a member same =>
        notLeft (Pointer.node.inj same ▸ member)).trans record
      have storedRight₁ : Stored dict₁.memory (.node entry.1) right :=
        storedRight.congr fun a member => othersLeft (.node a) fun b inLeft same =>
          apart b inLeft (Pointer.node.inj same ▸ member)
      have standing₁ : Standing dict₁.memory path (.node entry.1) :=
        standing.congr (fun a member => othersLeft (.node a) fun b inLeft same =>
            away b (.inr (.inl inLeft)) (Pointer.node.inj same ▸ member))
          (othersLeft .nil fun a _ same => Pointer.node_ne_nil a same.symm)
      obtain ⟨dict₂, came₂, callsRight, othersRight, leaving, loopsRight⟩ :=
        right_done record₁ turned fun some => ihRight some storedRight₁
          ⟨record₁, (fun impossible => by cases impossible), standing₁⟩ distinct
      have record₂ := (othersRight (.node entry.1) fun a member same =>
        notRight (Pointer.node.inj same ▸ member)).trans record₁
      have standing₂ : Standing dict₂.memory path (.node entry.1) :=
        standing₁.congr (fun a member => othersRight (.node a) fun b inRight same =>
            away b (.inr (.inr inRight)) (Pointer.node.inj same ▸ member))
          (othersRight .nil fun a _ same => Pointer.node_ne_nil a same.symm)
      obtain ⟨dict₃, leaves, call, others⟩ :=
        leaveNode_run touches record₂ rfl rfl standing₂ (away entry.1 (.inl rfl))
      refine ⟨dict₃, ?_, fun pointer outer => ?_, fun fuel => ?_⟩
      · refine visitAll_concat func ?_ call
        rw [visitAll_append, action_bind callsLeft, callsRight]
      · have member (a : Nat) : a = entry.1 ∨ a ∈ addresses left ∨ a ∈ addresses right →
            a ∈ addresses (.node color left entry right) := mem_addresses_node.mpr
        rw [others pointer (outer _ (member _ (.inl rfl))),
          othersRight pointer fun a inRight => outer a (member a (.inr (.inr inRight))),
          othersLeft pointer fun a inLeft => outer a (member a (.inr (.inl inLeft)))]
      · have count : fuel + 2 * (RedBlack.Tree.node color left entry right).inorder.length =
            (fuel + 2 * right.inorder.length + 1) + 1 + 2 * left.inorder.length := by
          rw [inorder_node, List.length_append, List.length_cons]
          omega
        have rest : fuel + 2 * right.inorder.length + 1 + 1 =
            fuel + 1 + 1 + 2 * right.inorder.length := by omega
        rw [count, address, loopsLeft, rest, loopsRight, safeTraverseLoop_step (leaving.trans leaves)]

end Visit

/-- `safe_traverse` calls the function on every node once, in postorder. -/
theorem safeTraverse_run {func : Pointer → DictM κ Unit} (touches : Touches func) {dict : Dict κ}
    {tree : RedBlack.Tree (Nat × κ)} (holds : Holds dict tree) :
    ∃ dict', safeTraverse func dict = .ok ((), dict') ∧
      visitAll func (postorder tree) dict = .ok ((), dict') ∧
      ∀ pointer, (∀ a ∈ addresses tree, pointer ≠ .node a) →
        dict'.memory pointer = dict.memory pointer := by
  obtain ⟨sentinel, found, root, -⟩ := holds.rooted
  have rootRun : dictRoot dict = .ok (address tree, dict) := by
    rw [dictRoot, load_run found, root]
  rw [safeTraverse, action_bind rootRun, steps_bind]
  by_cases empty : tree = .nil
  · subst empty
    exact ⟨dict, rfl, rfl, fun _ _ => rfl⟩
  · have standing : Standing dict.memory [] (address tree) := ⟨sentinel, found, root⟩
    obtain ⟨dict', calls, others, loops⟩ :=
      exists_visits touches empty holds.stored standing holds.distinct
    refine ⟨dict', ?_, calls, others⟩
    have count : 2 * (dict.next + 1) =
        2 * (dict.next + 1) - 2 * tree.inorder.length + 2 * tree.inorder.length := by
      have enough := holds.length_le
      omega
    rw [count, loops]
    rfl

/-! ## Freeing the nodes -/

def Dict.without (dict : Dict κ) (node : Pointer) : Dict κ :=
  { dict with memory := fun pointer => if pointer = node then none else dict.memory pointer }

/-- A node that is freed must be there, with a key. -/
theorem freeDict_eq_ok {pointer : Pointer} {dict dict' : Dict κ} :
    freeDict pointer dict = .ok ((), dict') ↔
      dict' = dict.without pointer ∧
        ∃ node key, dict.memory pointer = some node ∧ node.key = some key := by
  unfold freeDict loadKey
  rw [bind_assoc]
  cases found : dict.memory pointer with
  | none =>
      constructor
      · intro run
        have missing : load pointer Dnode.key dict =
            .error (if pointer = .null then .nullPointer else .outOfBounds) := by
          rw [load, found]
          rfl
        rw [fault_bind missing] at run
        cases run
      · rintro ⟨-, node, key, impossible, -⟩
        cases impossible
  | some node =>
      rw [load_bind found]
      cases keyed : node.key with
      | none =>
          constructor
          · intro run
            cases run
          · rintro ⟨-, other, key, same, impossible⟩
            cases same
            rw [keyed] at impossible
            cases impossible
      | some key =>
          constructor
          · intro run
            exact ⟨(Prod.mk.inj (Except.ok.inj run)).2.symm, node, key, rfl, keyed⟩
          · rintro ⟨rfl, -⟩
            rfl

theorem touches_freeDict : Touches (freeDict : Pointer → DictM κ Unit) := by
  intro dict a node key found keyed
  exact ⟨dict.without (.node a), freeDict_eq_ok.mpr ⟨rfl, node, key, found, keyed⟩,
    fun pointer other => if_neg other⟩

/-- Freeing entries leaves nothing behind their pointers. -/
theorem visitAll_freeDict {entries : List (Nat × κ)} {dict dict' : Dict κ}
    (freed : visitAll freeDict entries dict = .ok ((), dict')) :
    (∀ entry ∈ entries, dict'.memory (.node entry.1) = none) ∧
      ∀ pointer, dict.memory pointer = none → dict'.memory pointer = none := by
  induction entries generalizing dict with
  | nil =>
      cases freed
      exact ⟨fun entry member => absurd member List.not_mem_nil, fun _ gone => gone⟩
  | cons first entries ih =>
      rw [visitAll] at freed
      obtain ⟨⟨⟨⟩, between⟩, once, rest⟩ := Exec.bind_eq_ok.mp freed
      obtain ⟨rfl, -⟩ := freeDict_eq_ok.mp once
      obtain ⟨others, gone⟩ := ih rest
      refine ⟨fun entry member => ?_, fun pointer nothing => gone pointer ?_⟩
      · rcases List.mem_cons.mp member with rfl | later
        · exact gone _ (if_pos rfl)
        · exact others entry later
      · rw [Dict.without]
        dsimp only
        rw [nothing, ite_self]

/-- `dict_free_nodes` frees every node of the tree and nothing else. -/
theorem dictFreeNodes_run {dict : Dict κ} {tree : RedBlack.Tree (Nat × κ)}
    (holds : Holds dict tree) :
    ∃ dict', dictFreeNodes dict = .ok ((), dict') ∧ Holds dict' .nil ∧ dictCount dict' = 0 ∧
      (∀ a ∈ addresses tree, dict'.memory (.node a) = none) ∧
      (∀ pointer, pointer ≠ .nil → (∀ a ∈ addresses tree, pointer ≠ .node a) →
        dict'.memory pointer = dict.memory pointer) ∧
      (dict'.memory .nil).map Dnode.parent = (dict.memory .nil).map Dnode.parent := by
  obtain ⟨freed, run, calls, others⟩ := safeTraverse_run touches_freeDict holds
  obtain ⟨sentinel, found, -, -, isBlack⟩ := holds.rooted
  have kept : freed.memory .nil = some sentinel :=
    (others .nil fun a _ same => Pointer.node_ne_nil a same.symm).trans found
  have gone := (visitAll_freeDict calls).1
  let counted : Dict κ := { freed with nodecount := 0 }
  let first := counted.change .nil (Dnode.setChild .left .nil)
  let last := first.change .nil (Dnode.setChild .right .nil)
  have sentinelLast : last.memory .nil = some { sentinel with left := .nil, right := .nil } := by
    simp only [last, first, change_memory, counted, if_true, kept, Option.map_some, Dnode.setChild]
  have outside (pointer : Pointer) (notNil : pointer ≠ .nil) :
      last.memory pointer = freed.memory pointer := by
    simp only [last, first, change_memory, if_neg notNil, counted]
  refine ⟨last, ?_, ?_, rfl, fun a member => ?_, fun pointer notNil outer => ?_, ?_⟩
  · rw [dictFreeNodes, action_bind run, modify_bind,
      store_bind (show (counted.memory .nil).isSome by simp [counted, kept])]
    exact store_run (by simp [counted, kept]) _
  · exact
      { stored := trivial
        rooted := ⟨_, sentinelLast, rfl, rfl, isBlack⟩
        distinct := List.nodup_nil
        allocated := fun _ member => absurd member List.not_mem_nil }
  · obtain ⟨entry, inTree, rfl⟩ := List.mem_map.mp member
    rw [outside _ (Pointer.node_ne_nil _)]
    exact gone entry ((postorder_perm tree).mem_iff.mpr inTree)
  · rw [outside pointer notNil, others pointer outer]
  · rw [sentinelLast, found]
    rfl

end M2Handler.Adt

import M2Handler.Adt.Layout

/-!
# Actions on a dictionary that rewrite its tree

A rule for each access and for the rotation: from every dictionary that holds a
tree with the part in question at the end of some path, the action returns and
leaves a dictionary that holds the rewritten tree.  No rule adds or removes a
node, so the records of all other nodes stay.
-/

namespace M2Handler.Adt

open M2Handler.Machine M2Handler.RedBlack M2Handler.RedBlack.Tree

variable {κ β γ : Type}

/-! ## Single accesses -/

theorem change_memory (dict : Dict κ) (pointer other : Pointer) (update : Dnode κ → Dnode κ) :
    (dict.change pointer update).memory other =
      if other = pointer then (dict.memory other).map update else dict.memory other :=
  rfl

/-- No change makes a pointer valid or invalid. -/
@[simp] theorem isSome_change (dict : Dict κ) (pointer other : Pointer)
    (update : Dnode κ → Dnode κ) :
    ((dict.change pointer update).memory other).isSome = (dict.memory other).isSome := by
  rw [change_memory]
  split <;> simp

/-- Writing the link to a subtree. -/
theorem relinked_change (dict : Dict κ) (path : List (Frame (Nat × κ))) (new : Pointer) :
    Relinked dict.memory (dict.change (above path) (Dnode.setChild (holeSide path) new)).memory
      path new := by
  cases path with
  | nil =>
      exact fun sentinel found => ⟨sentinel.setChild .left new,
        by simp [change_memory, above, holeSide, found], rfl, rfl, rfl⟩
  | cons frame path =>
      refine ⟨fun sentinel found => ⟨sentinel, ?_, rfl, rfl, rfl⟩, ?_⟩
      · simp [change_memory, above, found]
      · simp [change_memory, above, holeSide]

section Access

variable {dict : Dict κ} {pointer : Pointer} {node : Dnode κ}

theorem load_run (found : dict.memory pointer = some node) (field : Dnode κ → β) :
    load pointer field dict = .ok (field node, dict) := by
  simp [load, found]

theorem load_bind (found : dict.memory pointer = some node) (field : Dnode κ → β)
    (next : β → DictM κ γ) : (load pointer field >>= next) dict = next (field node) dict := by
  change (load pointer field dict >>= fun outcome => next outcome.1 outcome.2) = _
  rw [load_run found, Exec.ok_bind]

theorem store_run (found : (dict.memory pointer).isSome) (update : Dnode κ → Dnode κ) :
    store pointer update dict = .ok ((), dict.change pointer update) := by
  obtain ⟨node, found⟩ := Option.isSome_iff_exists.mp found
  simp [store, found]

theorem store_bind (found : (dict.memory pointer).isSome) (update : Dnode κ → Dnode κ)
    (next : Unit → DictM κ γ) :
    (store pointer update >>= next) dict = next () (dict.change pointer update) := by
  change (store pointer update dict >>= fun outcome => next outcome.1 outcome.2) = _
  rw [store_run found, Exec.ok_bind]

theorem action_bind {action : DictM κ β} {result : β} {dict' : Dict κ}
    (run : action dict = .ok (result, dict')) (next : β → DictM κ γ) :
    (action >>= next) dict = next result dict' := by
  change (action dict >>= fun outcome => next outcome.1 outcome.2) = _
  rw [run, Exec.ok_bind]

theorem fault_bind {action : DictM κ β} {fault : Fault} (run : action dict = .error fault)
    (next : β → DictM κ γ) : (action >>= next) dict = .error fault := by
  change (action dict >>= fun outcome => next outcome.1 outcome.2) = _
  rw [run, Exec.error_bind]

theorem steps_bind (next : Nat → DictM κ γ) : (steps >>= next) dict = next (dict.next + 1) dict :=
  (rfl)

theorem modify_bind (update : Dict κ → Dict κ) (next : Unit → DictM κ γ) :
    (modify update >>= next) dict = next () (update dict) :=
  (rfl)

end Access

/-- The steps of a rotation, when the pointers it follows lead to nodes. -/
theorem rotate_run {dict : Dict κ} (side : Side) {upper lower inner upparent : Pointer}
    {upperNode lowerNode innerNode parentNode : Dnode κ}
    (foundUpper : dict.memory upper = some upperNode)
    (foundLower : dict.memory lower = some lowerNode)
    (foundInner : dict.memory inner = some innerNode)
    (foundParent : dict.memory upparent = some parentNode)
    (upperLower : upperNode.child side.other = lower) (lowerInner : lowerNode.child side = inner)
    (upperParent : upperNode.parent = upparent) (apartInner : upper ≠ inner)
    (apartParent : upparent ≠ upper) (parentLower : upparent ≠ lower) :
    rotate side upper dict =
      .ok ((), (((((dict.change upper (Dnode.setChild side.other inner)).change inner
        (Dnode.setParent upper)).change lower (Dnode.setParent upparent)).change upparent
        (Dnode.setChild (if upper = parentNode.child side then side else side.other) lower)).change
        lower (Dnode.setChild side upper)).change upper (Dnode.setParent lower)) := by
  have validUpper : (dict.memory upper).isSome := by simp [foundUpper]
  have validLower : (dict.memory lower).isSome := by simp [foundLower]
  have validInner : (dict.memory inner).isSome := by simp [foundInner]
  have validParent : (dict.memory upparent).isSome := by simp [foundParent]
  let linked := (dict.change upper (Dnode.setChild side.other inner)).change inner
    (Dnode.setParent upper)
  have parentField : linked.memory upper = some (upperNode.setChild side.other inner) := by
    simp [linked, change_memory, apartInner, foundUpper]
  have linkField : ∃ node, (linked.change lower (Dnode.setParent upparent)).memory upparent =
      some node ∧ node.child side = parentNode.child side := by
    by_cases same : upparent = inner
    · exact ⟨parentNode.setParent upper,
        by simp [linked, change_memory, parentLower, apartParent, ← same, foundParent],
        by cases side <;> rfl⟩
    · exact ⟨parentNode, by simp [linked, change_memory, parentLower, apartParent, same, foundParent],
        rfl⟩
  obtain ⟨node, foundLink, link⟩ := linkField
  unfold rotate
  rw [load_bind foundUpper, upperLower, load_bind foundLower, lowerInner,
    store_bind validUpper, store_bind (by simpa using validInner), load_bind parentField,
    show (upperNode.setChild side.other inner).parent = upparent by
      rw [← upperParent]; cases side <;> rfl,
    store_bind (by simpa [linked] using validLower), load_bind foundLink, link,
    store_bind (by simpa [linked] using validParent),
    store_bind (by simpa [linked] using validLower),
    store_run (by simpa [linked] using validUpper)]

/-! ## Rules -/

/-- A pointer to no node of a subtree and not to the sentinel. -/
theorem outside_ne_address {tree : RedBlack.Tree (Nat × κ)} {pointer : Pointer}
    (inner : pointer ≠ .nil)
    (outer : ∀ a ∈ addresses tree, pointer ≠ .node a) : pointer ≠ address tree := by
  by_cases empty : tree = .nil
  · rw [empty]
    exact inner
  · obtain ⟨a, member, root⟩ := exists_address empty
    rw [root]
    exact outer a member

theorem outside_ne_above {path : List (Frame (Nat × κ))} {pointer : Pointer}
    (inner : pointer ≠ .nil) (outer : ∀ a ∈ surroundings path, pointer ≠ .node a) :
    pointer ≠ above path := by
  by_cases empty : path = []
  · rw [empty]
    exact inner
  · obtain ⟨a, member, parent⟩ := exists_above empty
    rw [parent]
    exact outer a member

/-- Whatever is not a node of the tree, nor the sentinel, stays as it is. -/
structure Untouched (tree : RedBlack.Tree (Nat × κ)) (dict dict' : Dict κ) : Prop where
  next : dict'.next = dict.next
  nodecount : dict'.nodecount = dict.nodecount
  outside : ∀ pointer, pointer ≠ .nil → (∀ a ∈ addresses tree, pointer ≠ .node a) →
    dict'.memory pointer = dict.memory pointer

theorem Untouched.trans {tree middle : RedBlack.Tree (Nat × κ)} {dict between dict' : Dict κ}
    (first : Untouched tree dict between) (second : Untouched middle between dict')
    (same : middle.inorder = tree.inorder) : Untouched tree dict dict' := by
  refine ⟨second.next.trans first.next, second.nodecount.trans first.nodecount,
    fun pointer inner outer => ?_⟩
  rw [second.outside pointer inner, first.outside pointer inner outer]
  rwa [addresses, same]

theorem Untouched.null {tree : RedBlack.Tree (Nat × κ)} {dict dict' : Dict κ}
    (untouched : Untouched tree dict dict') : dict'.memory .null = dict.memory .null := by
  apply untouched.outside
  · intro same
    cases same
  · intro a _ same
    cases same

/-- The record of a node that is not in the tree. -/
theorem Untouched.fresh {tree : RedBlack.Tree (Nat × κ)} {dict dict' : Dict κ}
    (untouched : Untouched tree dict dict') {a : Nat} (fresh : a ∉ addresses tree) :
    dict'.memory (.node a) = dict.memory (.node a) := by
  apply untouched.outside _ (Pointer.node_ne_nil a)
  intro b member same
  exact fresh (Pointer.node.inj same ▸ member)

/-- From every dictionary that holds the one tree the action returns the result
and leaves a dictionary that holds the other, with the same nodes in the same
order. -/
def Rewrites (action : DictM κ β) (tree : RedBlack.Tree (Nat × κ)) (result : β)
    (tree' : RedBlack.Tree (Nat × κ)) : Prop :=
  tree'.inorder = tree.inorder ∧
    ∀ dict, Holds dict tree →
      ∃ dict', action dict = .ok (result, dict') ∧ Holds dict' tree' ∧ Untouched tree dict dict'

theorem rewrites_pure (result : β) (tree : RedBlack.Tree (Nat × κ)) :
    Rewrites (pure result) tree result tree :=
  ⟨rfl, fun dict holds => ⟨dict, rfl, holds, rfl, rfl, fun _ _ _ => rfl⟩⟩

theorem Rewrites.bind {action : DictM κ β} {next : β → DictM κ γ} {result : β} {final : γ}
    {tree middle tree' : RedBlack.Tree (Nat × κ)} (first : Rewrites action tree result middle)
    (rest : Rewrites (next result) middle final tree') :
    Rewrites (action >>= next) tree final tree' := by
  refine ⟨rest.1.trans first.1, fun dict holds => ?_⟩
  obtain ⟨between, run, held, untouched⟩ := first.2 dict holds
  obtain ⟨dict', runRest, held', untouchedRest⟩ := rest.2 between held
  exact ⟨dict', by rw [action_bind run, runRest], held', untouched.trans untouchedRest first.1⟩

/-- A loop is given more steps than the tree has nodes. -/
theorem rewrites_steps {next : Nat → DictM κ β} {result : β} {tree tree' : RedBlack.Tree (Nat × κ)}
    (rest : ∀ fuel, tree.inorder.length < fuel → Rewrites (next fuel) tree result tree') :
    Rewrites (steps >>= next) tree result tree' := by
  refine ⟨(rest _ (Nat.lt_succ_self _)).1, fun dict holds => ?_⟩
  rw [steps_bind]
  exact (rest _ (Nat.lt_succ_of_le holds.length_le)).2 dict holds

/-- Reading a field of a node. -/
theorem rewrites_load (path : List (Frame (Nat × κ))) (side : Side) (color : Color)
    (near far : RedBlack.Tree (Nat × κ)) (entry : Nat × κ) (field : Dnode κ → β) :
    Rewrites (load (.node entry.1) field) (plug path (join side color near entry far))
      (field (Dnode.linked side (address near) (address far) (above path) color entry.2))
      (plug path (join side color near entry far)) := by
  refine ⟨rfl, fun dict holds => ⟨dict, ?_, holds, rfl, rfl, fun _ _ _ => rfl⟩⟩
  exact load_run (stored_join.mp (holds_plug.mp holds).1).1 field

/-- Reading through the key of a node. -/
theorem rewrites_loadKey (path : List (Frame (Nat × κ))) (side : Side) (color : Color)
    (near far : RedBlack.Tree (Nat × κ)) (entry : Nat × κ) :
    Rewrites (loadKey (.node entry.1)) (plug path (join side color near entry far)) entry.2
      (plug path (join side color near entry far)) := by
  refine (rewrites_load path side color near far entry Dnode.key).bind ⟨rfl, fun dict holds => ?_⟩
  exact ⟨dict, by rw [key_linked]; rfl, holds, rfl, rfl, fun _ _ _ => rfl⟩

/-- Reading the colour of a subtree, which may be empty. -/
theorem rewrites_color (path : List (Frame (Nat × κ))) (tree : RedBlack.Tree (Nat × κ)) :
    Rewrites (load (address tree) Dnode.color) (plug path tree) tree.color (plug path tree) := by
  refine ⟨rfl, fun dict holds => ?_⟩
  obtain ⟨stored, around, -⟩ := holds_plug.mp holds
  obtain ⟨node, found, color⟩ := around.record stored
  exact ⟨dict, by rw [load_run found, color], holds, rfl, rfl, fun _ _ _ => rfl⟩

/-- The colour of the parent of a subtree; the sentinel is black. -/
def colorAbove : List (Frame (Nat × κ)) → Color
  | [] => .black
  | frame :: _ => frame.color

/-- Reading the colour of the parent of a subtree. -/
theorem rewrites_colorAbove (path : List (Frame (Nat × κ))) (tree : RedBlack.Tree (Nat × κ)) :
    Rewrites (load (above path) Dnode.color) (plug path tree) (colorAbove path)
      (plug path tree) := by
  cases path with
  | nil =>
      refine ⟨rfl, fun dict holds => ?_⟩
      obtain ⟨sentinel, found, -, isBlack⟩ := (holds_plug.mp holds).2.1.sentinel
      exact ⟨dict, by rw [above, load_run found, isBlack]; rfl, holds, rfl, rfl, fun _ _ _ => rfl⟩
  | cons frame path =>
      have read := rewrites_load path frame.side frame.color tree frame.sibling frame.value
        Dnode.color
      rwa [color_linked] at read

/-- A rotation at the end of a path. -/
theorem rewrites_rotate (path : List (Frame (Nat × κ))) (side : Side)
    (upperColor lowerColor : Color) (near middle far : RedBlack.Tree (Nat × κ))
    (upper lower : Nat × κ) :
    Rewrites (rotate side (.node upper.1))
      (plug path (join side upperColor near upper (join side lowerColor middle lower far))) ()
      (plug path (join side lowerColor (join side upperColor near upper middle) lower far)) := by
  refine ⟨inorder_plug_congr _ (inorder_rotate _ _ _ _ _ _ _ _ _ _), fun dict holds => ?_⟩
  obtain ⟨stored, around, distinct, allocated⟩ := holds_plug.mp holds
  simp only [stored_join, address_join] at stored around
  obtain ⟨foundUpper, storedNear, foundLower, storedMiddle, storedFar⟩ := stored
  obtain ⟨innerNode, foundInner, -⟩ := around.record storedMiddle
  simp only [nodup_addresses_plug, nodup_addresses_join, mem_addresses_join] at distinct
  obtain ⟨⟨upperNear, upperLowerMiddle, distinctNear, ⟨lowerMiddle, lowerFar, distinctMiddle,
    distinctFar, middleFar⟩, nearRest⟩, distinctPath, outside⟩ := distinct
  have upperPath : upper.1 ∉ surroundings path := outside _ (.inl rfl)
  have lowerPath : lower.1 ∉ surroundings path := outside _ (.inr (.inr (.inl rfl)))
  have upperLower : upper.1 ≠ lower.1 := fun same => upperLowerMiddle (.inl same)
  have upperMiddle : upper.1 ∉ addresses middle := fun member => upperLowerMiddle (.inr (.inl member))
  obtain ⟨parentNode, foundParent, link, otherLink⟩ := around.linked upperPath
  have parentSide : (if .node upper.1 = parentNode.child side then side else side.other) =
      holeSide path := by
    by_cases same : side = holeSide path
    · rw [same, link, if_pos rfl]
    · rw [Side.eq_other_of_ne same, if_neg otherLink.symm, Side.other_other]
  have run := rotate_run side foundUpper foundLower foundInner foundParent
    (child_other_linked _ _ _ _ _ _) (child_linked _ _ _ _ _ _) (parent_linked _ _ _ _ _ _)
    (node_ne_address upperMiddle) (node_ne_above upperPath).symm (node_ne_above lowerPath).symm
  rw [parentSide] at run
  refine ⟨_, run, holds_plug.mpr ⟨?_, ?_, ?_, ?_⟩, rfl, rfl, ?_⟩
  · simp only [stored_join, address_join]
    refine ⟨?_, ⟨?_, storedNear.congr ?_, storedMiddle.adopt distinctMiddle ?_ ?_⟩,
      storedFar.congr ?_⟩
    · simp [change_memory, foundLower, upperLower.symm, node_ne_address lowerMiddle,
        node_ne_above lowerPath]
    · simp [change_memory, foundUpper, upperLower, node_ne_address upperMiddle,
        node_ne_above upperPath]
    · intro a member
      have := nearRest a member
      grind [change_memory, node_ne_address, node_ne_above]
    · grind [change_memory, node_ne_address, node_ne_above]
    · intro nonempty
      obtain ⟨a, member, root⟩ := exists_address nonempty
      grind [change_memory, node_ne_address, node_ne_above]
    · grind [change_memory, node_ne_address, node_ne_above]
  · rw [address_join]
    apply around.relink distinctPath
    · grind [change_memory, node_ne_address, node_ne_above]
    · cases path with
      | nil =>
          intro sentinel found
          by_cases empty : middle = .nil
          · subst empty
            exact ⟨(sentinel.setParent (.node upper.1)).setChild .left (.node lower.1),
              by simp [change_memory, found, above, address, holeSide], rfl, rfl, rfl⟩
          · obtain ⟨a, -, root⟩ := exists_address empty
            exact ⟨sentinel.setChild .left (.node lower.1),
              by simp [change_memory, found, above, root, holeSide], rfl, rfl, rfl⟩
      | cons frame path =>
          constructor
          · intro sentinel found
            by_cases empty : middle = .nil
            · subst empty
              exact ⟨sentinel.setParent (.node upper.1),
                by simp [change_memory, found, above, address], rfl, rfl, rfl⟩
            · obtain ⟨a, -, root⟩ := exists_address empty
              exact ⟨sentinel, by simp [change_memory, found, above, root], rfl, rfl, rfl⟩
          · have member : frame.value.1 ∈ surroundings (frame :: path) :=
              mem_surroundings_cons.mpr (.inl rfl)
            grind [change_memory, node_ne_address, above, holeSide]
  · rw [addresses, inorder_plug_congr _ (inorder_rotate _ _ _ _ _ _ _ _ _ _)]
    exact holds.distinct
  · rw [addresses, inorder_plug_congr _ (inorder_rotate _ _ _ _ _ _ _ _ _ _)]
    exact holds.allocated
  · intro pointer inner outer
    simp only [mem_addresses_plug, mem_addresses_join] at outer
    have notMiddle : pointer ≠ address middle := outside_ne_address inner (by grind)
    have notAbove : pointer ≠ above path := outside_ne_above inner (by grind)
    grind [change_memory]

/-- Painting a subtree in place; an empty subtree can only be painted black. -/
theorem rewrites_paint (path : List (Frame (Nat × κ))) (tree : RedBlack.Tree (Nat × κ))
    (color : Color)
    (allowed : tree = .nil → color = .black) :
    Rewrites (store (address tree) (Dnode.setColor color)) (plug path tree) ()
      (plug path (tree.paint color)) := by
  have inorder : (plug path (tree.paint color)).inorder = (plug path tree).inorder :=
    inorder_plug_congr _ (inorder_paint color tree)
  refine ⟨inorder, fun dict holds => ?_⟩
  obtain ⟨stored, around, distinct, allocated⟩ := holds_plug.mp holds
  obtain ⟨node, found, -⟩ := around.record stored
  have valid : (dict.memory (address tree)).isSome := by simp [found]
  refine ⟨_, store_run valid _, holds_plug.mpr ⟨?_, ?_, ?_, ?_⟩, rfl, rfl, ?_⟩
  · cases tree with
    | nil => trivial
    | node old left entry right =>
        change (addresses (plug path (join .left old left entry right))).Nodup at distinct
        simp only [nodup_addresses_plug, nodup_addresses_join] at distinct
        obtain ⟨record, storedLeft, storedRight⟩ := stored
        refine ⟨?_, storedLeft.congr ?_, storedRight.congr ?_⟩
        · simp [change_memory, address, record]
        · grind [change_memory, address]
        · grind [change_memory, address]
  · rw [address_paint]
    refine around.congr ?_ ?_
    · intro a member
      have apart : Pointer.node a ≠ address tree := node_ne_address fun inside =>
        (nodup_addresses_plug.mp distinct).2.2 a inside member
      simp [change_memory, apart]
    · intro sentinel sentinelFound
      cases tree with
      | nil =>
          obtain ⟨other, otherFound, -, isBlack⟩ := around.sentinel
          obtain rfl : other = sentinel := by simpa [otherFound] using sentinelFound
          exact ⟨other.setColor color, by simp [change_memory, address, otherFound], rfl, rfl,
            (allowed rfl).trans isBlack.symm⟩
      | node old left entry right =>
          exact ⟨sentinel, by simp [change_memory, address, sentinelFound], rfl, rfl, rfl⟩
  · rw [addresses, inorder]
    exact distinct
  · rw [addresses, inorder]
    exact allocated
  · intro pointer inner outer
    have notRoot : pointer ≠ address tree :=
      outside_ne_address inner fun a member => outer a (mem_addresses_plug.mpr (.inl member))
    simp [change_memory, notRoot]

/-- Painting a node in place. -/
theorem rewrites_paint_join (path : List (Frame (Nat × κ))) (side : Side) (old color : Color)
    (near far : RedBlack.Tree (Nat × κ)) (entry : Nat × κ) :
    Rewrites (store (.node entry.1) (Dnode.setColor color))
      (plug path (join side old near entry far)) ()
      (plug path (join side color near entry far)) := by
  have painted := rewrites_paint path (join side old near entry far) color
    fun empty => absurd empty (join_ne_nil _ _ _ _ _)
  rwa [address_join, paint_join] at painted

section Subtrees

variable (path : List (Frame (Nat × κ))) (side : Side) (color : Color)
  (near far : RedBlack.Tree (Nat × κ)) (entry : Nat × κ)

/-- Reading the colour of a child. -/
theorem rewrites_color_near :
    Rewrites (load (address near) Dnode.color) (plug path (join side color near entry far))
      near.color (plug path (join side color near entry far)) :=
  rewrites_color (⟨side, color, entry, far⟩ :: path) near

theorem rewrites_color_far :
    Rewrites (load (address far) Dnode.color) (plug path (join side color near entry far))
      far.color (plug path (join side color near entry far)) := by
  rw [← join_other]
  exact rewrites_color_near path side.other color far near entry

/-- Painting a child in place. -/
theorem rewrites_paint_near (painted : Color) (allowed : near = .nil → painted = .black) :
    Rewrites (store (address near) (Dnode.setColor painted))
      (plug path (join side color near entry far)) ()
      (plug path (join side color (near.paint painted) entry far)) :=
  rewrites_paint (⟨side, color, entry, far⟩ :: path) near painted allowed

theorem rewrites_paint_far (painted : Color) (allowed : far = .nil → painted = .black) :
    Rewrites (store (address far) (Dnode.setColor painted))
      (plug path (join side color near entry far)) ()
      (plug path (join side color near entry (far.paint painted))) := by
  have mirrored := rewrites_paint_near path side.other color far near entry painted allowed
  rwa [join_other, join_other] at mirrored

end Subtrees

/-- The root of the tree. -/
theorem rewrites_dictRoot (tree : RedBlack.Tree (Nat × κ)) :
    Rewrites dictRoot tree (address tree) tree := by
  refine ⟨rfl, fun dict holds => ?_⟩
  obtain ⟨sentinel, found, left, -⟩ := holds.rooted
  exact ⟨dict, by rw [dictRoot, load_run found, left], holds, rfl, rfl, fun _ _ _ => rfl⟩

end M2Handler.Adt

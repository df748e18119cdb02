import M2Handler.Adt.Rewriting

/-!
# Insertion into a dictionary

The adjustments of `dict_insert` rewrite the tree as the repair after an
insertion does, and the whole of `dict_alloc_insert` adds one node to the tree.
-/

namespace M2Handler.Adt

open M2Handler.Machine M2Handler.RedBlack M2Handler.RedBlack.Tree

variable {κ : Type}

/-! ## The adjustments -/

/-- The rotations under a black uncle. -/
theorem rewrites_insertRotations (path : List (Frame (Nat × κ))) {parent grandpa : Frame (Nat × κ)}
    {inserted : RedBlack.Tree (Nat × κ)} (nonempty : inserted ≠ .nil) (red : parent.color = .red)
    (distinct : (addresses (plug (parent :: grandpa :: path) inserted)).Nodup) :
    Rewrites
      (insertRotations grandpa.side (address inserted) (.node parent.value.1)
        (.node grandpa.value.1))
      (plug (parent :: grandpa :: path) inserted) ()
      (plug path (insertRotate parent grandpa inserted)) := by
  obtain ⟨side, color, value, sibling⟩ := parent
  obtain ⟨sideAbove, colorAbove, valueAbove, uncle⟩ := grandpa
  dsimp only at red
  subst red
  by_cases same : side = sideAbove
  · subst same
    have apart : address inserted ≠ address sibling := by
      obtain ⟨a, member, root⟩ := exists_address nonempty
      rw [plug_cons, nodup_addresses_plug, Frame.fill, nodup_addresses_join] at distinct
      rw [root]
      exact node_ne_address (distinct.1.2.2.2.2 a member)
    have turn := rewrites_rotate path side.other .red .black uncle sibling inserted valueAbove value
    simp only [join_other] at turn
    rw [insertRotate_outer]
    refine (rewrites_load (⟨side, colorAbove, valueAbove, uncle⟩ :: path) side .red inserted sibling
      value (Dnode.child side.other)).bind ?_
    rw [child_other_linked, if_neg apart]
    refine (rewrites_pure _ _).bind ?_
    refine (rewrites_paint_join (⟨side, colorAbove, valueAbove, uncle⟩ :: path) side .red .black
      inserted sibling value).bind ?_
    exact (rewrites_paint_join path side colorAbove .red _ uncle valueAbove).bind turn
  · obtain rfl := Side.eq_other_of_ne same
    obtain ⟨inner, near, middle, far, rfl⟩ := exists_join sideAbove nonempty
    have turn := rewrites_rotate path sideAbove.other .red .black uncle far
      (join sideAbove .red sibling value near) valueAbove middle
    simp only [join_other] at turn
    rw [insertRotate_inner, plug_cons, Frame.fill, join_other, address_join]
    refine (rewrites_load (⟨sideAbove, colorAbove, valueAbove, uncle⟩ :: path) sideAbove .red
      sibling _ value (Dnode.child sideAbove.other)).bind ?_
    rw [child_other_linked, address_join, if_pos rfl]
    refine (rewrites_rotate (⟨sideAbove, colorAbove, valueAbove, uncle⟩ :: path) sideAbove .red
      inner sibling near far value middle).bind ?_
    refine (rewrites_pure _ _).bind ?_
    refine (rewrites_paint_join (⟨sideAbove, colorAbove, valueAbove, uncle⟩ :: path) sideAbove
      inner .black _ far middle).bind ?_
    exact (rewrites_paint_join path sideAbove colorAbove .red _ uncle valueAbove).bind turn

/-- A black parent ends the adjustments. -/
theorem rewrites_insertLoop_black (path : List (Frame (Nat × κ)))
    (inserted : RedBlack.Tree (Nat × κ))
    (fuel : Nat) (black : colorAbove path = .black) :
    Rewrites (insertLoop (fuel + 1) (address inserted) (above path)) (plug path inserted) ()
      (plug path inserted) := by
  unfold insertLoop
  refine (rewrites_colorAbove path inserted).bind ?_
  rw [black, if_neg (by decide)]
  exact rewrites_pure _ _

/-- Under a red parent the uncle decides how the adjustments go on. -/
theorem rewrites_insertLoop_red {path : List (Frame (Nat × κ))} {parent grandpa : Frame (Nat × κ)}
    {inserted tree' : RedBlack.Tree (Nat × κ)} {fuel : Nat} (red : parent.color = .red)
    (distinct : (addresses (plug (parent :: grandpa :: path) inserted)).Nodup)
    (decided : Rewrites
      (if grandpa.sibling.color = .red then do
        store (.node parent.value.1) (Dnode.setColor .black)
        store (address grandpa.sibling) (Dnode.setColor .black)
        store (.node grandpa.value.1) (Dnode.setColor .red)
        let above ← load (.node grandpa.value.1) Dnode.parent
        insertLoop fuel (.node grandpa.value.1) above
      else insertRotations grandpa.side (address inserted) (.node parent.value.1)
        (.node grandpa.value.1))
      (plug (parent :: grandpa :: path) inserted) () tree') :
    Rewrites (insertLoop (fuel + 1) (address inserted) (.node parent.value.1))
      (plug (parent :: grandpa :: path) inserted) () tree' := by
  have apart : Pointer.node parent.value.1 ≠ address grandpa.sibling := by
    rw [plug_cons, plug_cons, nodup_addresses_plug, Frame.fill, nodup_addresses_join] at distinct
    exact node_ne_address (distinct.1.2.2.2.2 _ (by simp [Frame.fill]))
  have atGrandpa {γ : Type} (field : Dnode κ → γ) := rewrites_load path grandpa.side grandpa.color
    (parent.fill inserted) grandpa.sibling grandpa.value field
  unfold insertLoop
  refine (rewrites_load (grandpa :: path) parent.side parent.color inserted parent.sibling
    parent.value Dnode.color).bind ?_
  rw [color_linked, if_pos red]
  refine (rewrites_load (grandpa :: path) parent.side parent.color inserted parent.sibling
    parent.value Dnode.parent).bind ?_
  rw [parent_linked, above]
  refine (atGrandpa Dnode.left).bind ?_
  rw [Frame.fill, address_join, side_of_linked _ _ _ _ _ _ apart]
  refine (atGrandpa (Dnode.child grandpa.side.other)).bind ?_
  rw [child_other_linked]
  exact (rewrites_color_far path grandpa.side grandpa.color _ grandpa.sibling grandpa.value).bind
    decided

/-- The adjustments rewrite the tree as the repair does, up to the colour of the
root. -/
theorem rewrites_insertLoop {path : List (Frame (Nat × κ))} (inserted : RedBlack.Tree (Nat × κ))
    {height fuel : Nat} (nonempty : inserted ≠ .nil) (fits : Fits path height)
    (distinct : (addresses (plug path inserted)).Nodup) (enough : path.length < fuel) :
    ∃ tree', tree'.paint .black = insertFixup path inserted ∧
      Rewrites (insertLoop fuel (address inserted) (above path)) (plug path inserted) () tree' := by
  obtain ⟨fuel, rfl⟩ : ∃ less, fuel = less + 1 := ⟨fuel - 1, by omega⟩
  induction path, inserted using insertFixup.induct generalizing height fuel with
  | case1 inserted => exact ⟨inserted, rfl, rewrites_insertLoop_black [] inserted fuel rfl⟩
  | case2 parent inserted =>
      have black : parent.color = .black := Color.eq_black fun red => (fits.2.1 red).2
      exact ⟨parent.fill inserted, rfl,
        rewrites_insertLoop_black [parent] inserted fuel black⟩
  | case3 parent grandpa path inserted red uncleRed ih =>
      have kept : (join grandpa.side .red ((parent.fill inserted).paint .black) grandpa.value
          (grandpa.sibling.paint .black)).inorder = (grandpa.fill (parent.fill inserted)).inorder := by
        cases side : grandpa.side <;> simp [Frame.fill, join, side]
      obtain ⟨less, rfl⟩ : ∃ less, fuel = less + 1 := ⟨fuel - 1, by simp at enough; omega⟩
      obtain ⟨-, -, -, -, fitsAbove⟩ := fits
      obtain ⟨tree', painted, rest⟩ := ih (join_ne_nil _ _ _ _ _) fitsAbove
        (by rw [addresses, inorder_plug_congr _ kept]; exact distinct) less
        (by simp at enough; omega)
      refine ⟨tree', by rw [painted, insertFixup, if_pos red, if_pos uncleRed],
        rewrites_insertLoop_red red distinct ?_⟩
      rw [if_pos uncleRed]
      refine (rewrites_paint_join (grandpa :: path) parent.side parent.color .black inserted
        parent.sibling parent.value).bind ?_
      rw [← paint_join parent.side parent.color]
      refine (rewrites_paint_far path grandpa.side grandpa.color _ grandpa.sibling grandpa.value
        .black fun _ => rfl).bind ?_
      refine (rewrites_paint_join path grandpa.side grandpa.color .red _ _ grandpa.value).bind ?_
      refine (rewrites_load path grandpa.side .red _ _ grandpa.value Dnode.parent).bind ?_
      rw [parent_linked]
      rwa [address_join] at rest
  | case4 parent grandpa path inserted red uncleBlack =>
      refine ⟨plug path (insertRotate parent grandpa inserted),
        by rw [insertFixup, if_pos red, if_neg uncleBlack], rewrites_insertLoop_red red distinct ?_⟩
      rw [if_neg uncleBlack]
      exact rewrites_insertRotations path nonempty red distinct
  | case5 parent grandpa path inserted black =>
      exact ⟨plug (parent :: grandpa :: path) inserted, by rw [insertFixup, if_neg black],
        rewrites_insertLoop_black (parent :: grandpa :: path) inserted fuel
          (Color.eq_black black)⟩

/-! ## The descent -/

def isBelow (compare : κ → κ → Int) (key : κ) (entry : Nat × κ) : Bool :=
  compare key entry.2 < 0

/-- The basic binary tree insert ends below the node where the descent ends. -/
theorem rewrites_descendLoop (compare : κ → κ → Int) (key : κ) (fuel : Nat)
    (tree : RedBlack.Tree (Nat × κ)) (path : List (Frame (Nat × κ))) (result : Int)
    (enough : tree.inorder.length < fuel)
    (side : (if result < 0 then Side.left else Side.right) = holeSide path) :
    ∃ last : Int,
      (if last < 0 then Side.left else Side.right) =
          holeSide (descend (isBelow compare key) tree path) ∧
        Rewrites (descendLoop compare key fuel (address tree) (above path) result)
          (plug path tree) (above (descend (isBelow compare key) tree path), last)
          (plug path tree) := by
  induction tree generalizing fuel path result with
  | nil =>
      obtain ⟨fuel, rfl⟩ : ∃ less, fuel = less + 1 := ⟨fuel - 1, by omega⟩
      exact ⟨result, side, rewrites_pure _ _⟩
  | node color left entry right ihLeft ihRight =>
      obtain ⟨fuel, rfl⟩ : ∃ less, fuel = less + 1 := ⟨fuel - 1, by omega⟩
      simp only [inorder_node, List.length_append, List.length_cons] at enough
      have stop : address (.node color left entry right) ≠ .nil := Pointer.node_ne_nil _
      unfold descendLoop
      rw [if_neg stop, descend]
      by_cases smaller : compare key entry.2 < 0
      · obtain ⟨last, lastSide, rest⟩ := ihLeft fuel (⟨.left, color, entry, right⟩ :: path)
          (compare key entry.2) (by omega) (if_pos smaller)
        rw [show isBelow compare key entry = true from decide_eq_true smaller, if_pos rfl]
        refine ⟨last, lastSide, ?_⟩
        refine (rewrites_loadKey path .left color left right entry).bind ?_
        dsimp only
        rw [if_pos smaller]
        refine (rewrites_load path .left color left right entry (Dnode.child .left)).bind ?_
        exact rest
      · obtain ⟨last, lastSide, rest⟩ := ihRight fuel (⟨.right, color, entry, left⟩ :: path)
          (compare key entry.2) (by omega) (if_neg smaller)
        rw [show isBelow compare key entry = false from decide_eq_false smaller,
          if_neg (by decide)]
        refine ⟨last, lastSide, ?_⟩
        refine (rewrites_loadKey path .left color left right entry).bind ?_
        dsimp only
        rw [if_neg smaller]
        refine (rewrites_load path .left color left right entry (Dnode.child .right)).bind ?_
        exact rest

/-! ## The new node -/

/-- The node is linked as a red leaf at the end of a path. -/
def leafLinked (dict : Dict κ) (path : List (Frame (Nat × κ))) (a : Nat) : Dict κ :=
  { ((((dict.change (above path) (Dnode.setChild (holeSide path) (.node a))).change (.node a)
      (Dnode.setParent (above path))).change (.node a) (Dnode.setChild .left .nil)).change (.node a)
      (Dnode.setChild .right .nil)).change (.node a) (Dnode.setColor .red) with
    nodecount := dict.nodecount + 1 }

/-- A leaf that is linked at an empty place is part of the tree. -/
theorem holds_leafLinked {dict : Dict κ} {path : List (Frame (Nat × κ))} {a : Nat} {key : κ}
    {node : Dnode κ} (holds : Holds dict (plug path .nil)) (fresh : a ∉ surroundings path)
    (allocated : a < dict.next) (found : dict.memory (.node a) = some (node.setKey key)) :
    Holds (leafLinked dict path a) (plug path (.node .red .nil (a, key) .nil)) := by
  obtain ⟨-, around, distinct, bounded⟩ := holds_plug.mp holds
  rw [nodup_addresses_plug] at distinct
  have apart : Pointer.node a ≠ above path := node_ne_above fresh
  refine holds_plug.mpr ⟨⟨?_, trivial, trivial⟩, around.relink distinct.2.1 ?_ ?_, ?_, ?_⟩
  · simp only [leafLinked, change_memory, if_pos, if_neg apart, found]
    rfl
  · intro b member notParent
    have other : b ≠ a := fun same => fresh (same ▸ member)
    simp [leafLinked, change_memory, other, notParent]
  · apply (relinked_change dict path (.node a)).congr
    · simp [leafLinked, change_memory]
    · simp only [leafLinked, change_memory, if_neg apart.symm]
  · exact nodup_addresses_plug.mpr ⟨by simp [addresses], distinct.2.1, by simpa [addresses]⟩
  · intro b member
    rcases mem_addresses_plug.mp member with own | other
    · obtain rfl : b = a := by simpa [addresses] using own
      exact allocated
    · exact bounded b (mem_addresses_plug.mpr (.inr other))

/-- The adjustments above a red leaf and the black root repair the tree. -/
theorem rewrites_adjusted {path : List (Frame (Nat × κ))} {entry : Nat × κ} {height fuel : Nat}
    (fits : Fits path height)
    (distinct : (addresses (plug path (.node .red .nil entry .nil))).Nodup)
    (enough : path.length < fuel) :
    Rewrites (do
      insertLoop fuel (.node entry.1) (above path)
      let root ← dictRoot
      store root (Dnode.setColor .black))
      (plug path (.node .red .nil entry .nil)) () (insertFixup path (.node .red .nil entry .nil)) := by
  obtain ⟨tree', painted, adjusted⟩ := rewrites_insertLoop (.node .red .nil entry .nil)
    (join_ne_nil .left _ _ _ _) fits distinct enough
  rw [← painted]
  exact adjusted.bind ((rewrites_dictRoot tree').bind (rewrites_paint [] tree' .black fun _ => rfl))

/-- `dict_insert` of a fresh node inserts its key into the tree. -/
theorem dictInsert_run (compare : κ → κ → Int) (key : κ) {dict : Dict κ}
    {tree : RedBlack.Tree (Nat × κ)}
    {a : Nat} (holds : Holds dict tree) (redBlack : IsRedBlack tree)
    (fresh : a ∉ addresses tree) (allocated : a < dict.next) {node : Dnode κ}
    (found : dict.memory (.node a) = some node) :
    ∃ dict', dictInsert compare (.node a) key dict = .ok ((), dict') ∧
      Holds dict' (RedBlack.insert (isBelow compare key) (a, key) tree) ∧
      dict'.nodecount = dict.nodecount + 1 ∧ dict'.next = dict.next ∧
      dict'.memory .null = dict.memory .null := by
  -- the key is written while the node is outside the tree
  have keyed : Holds (dict.change (.node a) (Dnode.setKey key)) tree :=
    holds.write_fresh fresh (fun pointer other => by simp [change_memory, other]) le_rfl
  obtain ⟨last, side, descent⟩ := rewrites_descendLoop compare key (dict.next + 1) tree [] (-1)
    (Nat.lt_succ_of_le holds.length_le) rfl
  obtain ⟨below, runDescent, held, untouched⟩ := descent.2 _ keyed
  -- the descent ends at an empty place, where the leaf is linked
  generalize position : descend (isBelow compare key) tree [] = path at side runDescent
  have plugged : plug path .nil = tree := by rw [← position]; exact plug_descend _ _ _
  have freshPath : a ∉ surroundings path := fun member =>
    fresh (plugged ▸ mem_addresses_plug.mpr (.inr member))
  have foundBelow : below.memory (.node a) = some (node.setKey key) := by
    rw [untouched.fresh fresh]
    simp [change_memory, found]
  rw [plug_nil, ← plugged] at held
  have heldLeaf := holds_leafLinked held freshPath (by rw [untouched.next]; exact allocated)
    foundBelow
  -- from here on the adjustments rewrite the tree with the leaf
  have gap : IsRedBlack (plug path .nil) := by rw [plugged]; exact redBlack
  obtain ⟨height, fits, -⟩ := isRedBlack_plug_iff.mp gap
  have short : path.length < dict.next + 1 := by
    have := length_le_inorder_plug path (.nil : RedBlack.Tree (Nat × κ))
    rw [plugged] at this
    have := holds.length_le
    omega
  obtain ⟨dict', run, held', untouched'⟩ :=
    (rewrites_adjusted fits heldLeaf.distinct short).2 _ heldLeaf
  refine ⟨dict', ?_, ?_, ?_, ?_, ?_⟩
  · obtain ⟨sentinel, sentinelFound, root, -⟩ := holds.rooted
    have valid : (dict.memory (.node a)).isSome := by simp [found]
    have validParent := (holds_plug.mp held).2.1.valid
    have validLeaf : (below.memory (.node a)).isSome := by simp [foundBelow]
    rw [show above ([] : List (Frame (Nat × κ))) = .nil from rfl] at runDescent
    unfold dictInsert
    rw [dictRoot, load_bind sentinelFound, root, steps_bind,
      store_bind valid, action_bind runDescent]
    dsimp only
    rw [side, store_bind validParent, store_bind (by simpa using validLeaf),
      store_bind (by simpa using validLeaf), store_bind (by simpa using validLeaf), modify_bind,
      store_bind (by simpa using validLeaf)]
    exact run
  · rw [RedBlack.insert, position]
    exact held'
  · rw [untouched'.nodecount]
    change below.nodecount + 1 = dict.nodecount + 1
    rw [untouched.nodecount]
    rfl
  · rw [untouched'.next]
    exact untouched.next
  · rw [untouched'.null]
    simp only [leafLinked, change_memory, if_neg (above_ne_null path).symm, reduceCtorEq, if_false]
    rw [untouched.null]
    simp [change_memory]

/-- `dict_alloc_insert` inserts a fresh node with the key. -/
theorem dictAllocInsert_run (compare : κ → κ → Int) (key : κ) {dict : Dict κ}
    {tree : RedBlack.Tree (Nat × κ)} (holds : Holds dict tree) (redBlack : IsRedBlack tree) :
    ∃ dict', dictAllocInsert compare key dict = .ok (1, dict') ∧
      Holds dict' (RedBlack.insert (isBelow compare key) (dict.next, key) tree) ∧
      dict'.nodecount = dict.nodecount + 1 ∧ dict'.memory .null = dict.memory .null := by
  let allocated : Dict κ :=
    { dict with
      memory := fun pointer =>
        if pointer = .node dict.next then some Dnode.zeroed else dict.memory pointer
      next := dict.next + 1 }
  have fresh : dict.next ∉ addresses tree := fun member =>
    absurd (holds.allocated _ member) (lt_irrefl _)
  have found : allocated.memory (.node dict.next) = some Dnode.zeroed := by simp [allocated]
  have initialised : Holds (allocated.change (.node dict.next) Dnode.unlink) tree :=
    holds.write_fresh fresh (fun pointer other => by simp [allocated, change_memory, other])
      (Nat.le_succ _)
  have foundUnlinked : (allocated.change (.node dict.next) Dnode.unlink).memory (.node dict.next) =
      some Dnode.zeroed.unlink := by
    simp [change_memory, found]
  have allocation : allocDict dict = .ok (.node dict.next, allocated) := rfl
  obtain ⟨dict', run, held, count, -, null⟩ := dictInsert_run compare key initialised redBlack fresh
    (Nat.lt_succ_self _) foundUnlinked
  refine ⟨dict', ?_, held, count, by rw [null]; simp [allocated, change_memory]⟩
  unfold dictAllocInsert
  rw [action_bind allocation, store_bind (by simp [found]),
    action_bind run]
  rfl

end M2Handler.Adt

import M2Handler.Adt.Deletion
import M2Handler.Adt.Traversal

/-!
# Removal from a dictionary

`dict_delete` takes a node out of its place, or moves its successor there, and
then adjusts the tree; `dict_delete_free` also frees the node.
-/

namespace M2Handler.Adt

open M2Handler.Machine M2Handler.RedBlack M2Handler.RedBlack.Tree

variable {κ : Type}

/-! ## Splicing -/

/-- The new parent of a subtree is written at its root or at the sentinel. -/
theorem sameSentinel_setParent (dict : Dict κ) (pointer parent : Pointer) :
    SameSentinel dict.memory (dict.change pointer (Dnode.setParent parent)).memory := by
  intro sentinel found
  by_cases root : Pointer.nil = pointer
  · exact ⟨sentinel.setParent parent, by simp [change_memory, ← root, found], rfl, rfl, rfl⟩
  · exact ⟨sentinel, by simp [change_memory, root, found], rfl, rfl, rfl⟩

/-- A link to another child leaves all parents as they are. -/
theorem parent_setChild (dict : Dict κ) (pointer other child : Pointer) (side : Side) :
    ((dict.change pointer (Dnode.setChild side child)).memory other).map Dnode.parent =
      (dict.memory other).map Dnode.parent := by
  rw [change_memory]
  split
  · cases dict.memory other with
    | none => rfl
    | some node => cases side <;> rfl
  · rfl

/-- Another node takes the place of a child at its parent. -/
theorem relink_run {dict : Dict κ} {path : List (Frame (Nat × κ))} {a : Nat} (new : Pointer)
    (around : Around dict.memory path (.node a)) (apart : a ∉ surroundings path) :
    relink (above path) (.node a) new dict =
      .ok ((), dict.change (above path) (Dnode.setChild (holeSide path) new)) := by
  obtain ⟨parent, found, link, otherLink⟩ := around.linked apart
  have side : (if parent.left = .node a then Side.left else Side.right) = holeSide path := by
    cases hole : holeSide path with
    | left =>
        rw [hole] at link
        exact if_pos link
    | right =>
        rw [hole] at otherLink
        exact if_neg otherLink
  unfold relink
  rw [load_bind found, side, store_run (by simp [found])]

/-- A node is not in the tree that is left without it. -/
theorem notMem_unhooked {path : List (Frame (Nat × κ))} {side : Side} {color : Color}
    {only : RedBlack.Tree (Nat × κ)} {entry : Nat × κ}
    (distinct : (addresses (plug path (join side color only entry .nil))).Nodup) :
    entry.1 ∉ addresses (plug path only) := by
  rw [nodup_addresses_plug, nodup_addresses_join] at distinct
  rw [mem_addresses_plug]
  rintro (inside | around)
  · exact distinct.1.1 inside
  · exact distinct.2.2 _ (mem_addresses_join.mpr (.inl rfl)) around

/-- A node with one subtree at most is taken out of its place. -/
theorem unhook_run {dict : Dict κ} {path : List (Frame (Nat × κ))} {side : Side} {color : Color}
    {only : RedBlack.Tree (Nat × κ)} {entry : Nat × κ}
    (holds : Holds dict (plug path (join side color only entry .nil))) :
    ∃ dict', (do
        store (address only) (Dnode.setParent (above path))
        relink (above path) (.node entry.1) (address only) : DictM κ Unit) dict = .ok ((), dict') ∧
      Holds dict' (plug path only) ∧
      (dict'.memory (address only)).map Dnode.parent = some (above path) ∧
      Untouched (plug path only) dict dict' := by
  obtain ⟨stored, around, distinct, allocated⟩ := holds_plug.mp holds
  obtain ⟨record, storedOnly, -⟩ := stored_join.mp stored
  rw [address_join] at around
  simp only [nodup_addresses_plug, nodup_addresses_join, mem_addresses_join, addresses_nil] at distinct
  obtain ⟨⟨notOnly, -, distinctOnly, -⟩, distinctPath, outside⟩ := distinct
  have onlyPath : ∀ a ∈ addresses only, a ∉ surroundings path := by grind
  have entryPath : entry.1 ∉ surroundings path := by grind
  obtain ⟨root, found, -⟩ := around.record storedOnly
  let adopted := dict.change (address only) (Dnode.setParent (above path))
  have aroundAdopted : Around adopted.memory path (.node entry.1) := by
    refine around.congr ?_ (sameSentinel_setParent dict _ _)
    grind [change_memory, node_ne_address]
  refine ⟨adopted.change (above path) (Dnode.setChild (holeSide path) (address only)), ?_,
    holds_plug.mpr ⟨storedOnly.adopt distinctOnly ?_ ?_, aroundAdopted.relink distinctPath ?_
      (relinked_change adopted path (address only)), ?_, ?_⟩, ?_, rfl, rfl, ?_⟩
  · rw [store_bind (by simp [found])]
    exact relink_run (address only) aroundAdopted entryPath
  · grind [change_memory, node_ne_above]
  · intro nonempty
    obtain ⟨a, member, same⟩ := exists_address nonempty
    grind [change_memory, node_ne_above]
  · grind [change_memory]
  · exact nodup_addresses_plug.mpr ⟨distinctOnly, distinctPath, onlyPath⟩
  · intro a member
    apply allocated
    simp only [mem_addresses_plug, mem_addresses_join] at member ⊢
    tauto
  · rw [parent_setChild]
    simp [adopted, change_memory, found, Dnode.setParent]
  · intro pointer inner outer
    simp only [mem_addresses_plug] at outer
    have notRoot := outside_ne_address inner fun a member => outer a (.inl member)
    have notParent := outside_ne_above inner fun a member => outer a (.inr member)
    simp [adopted, change_memory, notRoot, notParent]

section Takeover

variable {dict : Dict κ} {path : List (Frame (Nat × κ))} {color : Color}
  {left right : RedBlack.Tree (Nat × κ)} {entry new : Nat × κ} {node : Dnode κ} (old : Color)

/-- A node has been given the links and the colour of another one, which has been
painted; the place above them is not relinked yet. -/
def takenOver (dict : Dict κ) (path : List (Frame (Nat × κ))) (color : Color)
    (left right : RedBlack.Tree (Nat × κ)) (entry new : Nat × κ) (old : Color) : Dict κ :=
  let written := ((dict.change (.node new.1) (Dnode.setParent (above path))).change (.node new.1)
    (Dnode.setChild .left (address left))).change (.node new.1)
    (Dnode.setChild .right (address right))
  (((written.change (address left) (Dnode.setParent (.node new.1))).change
    (address right) (Dnode.setParent (.node new.1))).change (.node new.1)
    (Dnode.setColor color)).change (.node entry.1) (Dnode.setColor old)

theorem takenOver_outside {pointer : Pointer} (notNew : pointer ≠ .node new.1)
    (notEntry : pointer ≠ .node entry.1) (notLeft : pointer ≠ address left)
    (notRight : pointer ≠ address right) :
    (takenOver dict path color left right entry new old).memory pointer = dict.memory pointer := by
  simp [takenOver, change_memory, notNew, notEntry, notLeft, notRight]

/-- An empty right subtree leaves its parent at the sentinel. -/
theorem takenOver_sentinel (nonempty : left ≠ .nil) :
    (takenOver dict path color left right entry new old).memory .nil =
      if address right = .nil then (dict.memory .nil).map (Dnode.setParent (.node new.1))
        else dict.memory .nil := by
  obtain ⟨root, -, leftAddress⟩ := exists_address nonempty
  by_cases empty : address right = .nil
  · simp [takenOver, change_memory, leftAddress, empty]
  · simp [takenOver, change_memory, leftAddress, Ne.symm empty, empty]

section Apart

variable (newEntry : new.1 ≠ entry.1) (newLeft : new.1 ∉ addresses left)
  (notLeft : entry.1 ∉ addresses left) (notRight : entry.1 ∉ addresses right)
  (record : dict.memory (.node entry.1) =
    some (Dnode.linked .left (address left) (address right) (above path) color entry.2))
include newEntry notLeft notRight record

theorem takenOver_entry :
    (takenOver dict path color left right entry new old).memory (.node entry.1) =
      some (Dnode.linked .left (address left) (address right) (above path) old entry.2) := by
  simp only [takenOver, change_memory]
  grind [node_ne_address, Dnode.setColor, Dnode.linked]

include newLeft in
/-- The writes in the order of the source. -/
theorem takeover_writes (found : dict.memory (.node new.1) = some node)
    (validLeft : (dict.memory (address left)).isSome)
    (validRight : (dict.memory (address right)).isSome) (rest : DictM κ Unit) :
    (do
      store (.node new.1) (Dnode.setParent (above path))
      let left ← load (.node entry.1) Dnode.left
      store (.node new.1) (Dnode.setChild .left left)
      let right ← load (.node entry.1) Dnode.right
      store (.node new.1) (Dnode.setChild .right right)
      let nextLeft ← load (.node new.1) Dnode.left
      store nextLeft (Dnode.setParent (.node new.1))
      let nextRight ← load (.node new.1) Dnode.right
      store nextRight (Dnode.setParent (.node new.1))
      let color ← load (.node entry.1) Dnode.color
      store (.node new.1) (Dnode.setColor color)
      store (.node entry.1) (Dnode.setColor old)
      rest : DictM κ Unit) dict = rest (takenOver dict path color left right entry new old) := by
  let parented := dict.change (.node new.1) (Dnode.setParent (above path))
  let written := (parented.change (.node new.1) (Dnode.setChild .left (address left))).change
    (.node new.1) (Dnode.setChild .right (address right))
  let adopted := written.change (address left) (Dnode.setParent (.node new.1))
  have entryFirst : parented.memory (.node entry.1) =
      some (Dnode.linked .left (address left) (address right) (above path) color entry.2) := by
    simp [parented, change_memory, newEntry.symm, record]
  have entrySecond : (parented.change (.node new.1) (Dnode.setChild .left (address left))).memory
      (.node entry.1) =
      some (Dnode.linked .left (address left) (address right) (above path) color entry.2) := by
    simp [parented, change_memory, newEntry.symm, record]
  have newThird : written.memory (.node new.1) = some { node with
      left := address left, right := address right, parent := above path } := by
    simp [written, parented, change_memory, found, Dnode.setParent, Dnode.setChild]
  have newFourth : adopted.memory (.node new.1) = some { node with
      left := address left, right := address right, parent := above path } := by
    rw [change_memory, if_neg (node_ne_address newLeft), newThird]
  have entryFifth : (adopted.change (address right) (Dnode.setParent (.node new.1))).memory
      (.node entry.1) =
      some (Dnode.linked .left (address left) (address right) (above path) color entry.2) := by
    simp [adopted, written, parented, change_memory, newEntry.symm, node_ne_address notLeft,
      node_ne_address notRight, record]
  have validNew : (dict.memory (.node new.1)).isSome := by simp [found]
  have validEntry : (dict.memory (.node entry.1)).isSome := by simp [record]
  rw [store_bind validNew, load_bind entryFirst]
  rw [store_bind (by simpa only [parented, isSome_change] using validNew)]
  refine (load_bind entrySecond _ _).trans ?_
  rw [store_bind (by simpa only [parented, isSome_change] using validNew)]
  refine (load_bind newThird _ _).trans ?_
  rw [store_bind (by simpa only [written, parented, isSome_change] using validLeft)]
  refine (load_bind newFourth _ _).trans ?_
  rw [store_bind (by simpa only [adopted, written, parented, isSome_change] using validRight)]
  refine (load_bind entryFifth _ _).trans ?_
  rw [store_bind (by simpa only [adopted, written, parented, isSome_change] using validNew),
    store_bind (by simpa only [adopted, written, parented, isSome_change] using validEntry)]
  rfl

end Apart

/-- The node that takes over has the links of the other one and its own key. -/
theorem takenOver_new (newEntry : new.1 ≠ entry.1) (newLeft : new.1 ∉ addresses left)
    (newRight : new.1 ∉ addresses right) (found : dict.memory (.node new.1) = some node)
    (key : node.key = some new.2) :
    (takenOver dict path color left right entry new old).memory (.node new.1) =
      some (Dnode.linked .left (address left) (address right) (above path) color new.2) := by
  simp only [takenOver, change_memory]
  grind [node_ne_address, Dnode.setParent, Dnode.setChild, Dnode.setColor, Dnode.linked]

/-- A node outside the tree takes the place of a node with a left subtree. -/
theorem takeover_run
    (holds : Holds dict (plug path (.node color left entry right))) (nonempty : left ≠ .nil)
    (found : dict.memory (.node new.1) = some node) (key : node.key = some new.2)
    (fresh : new.1 ∉ addresses (plug path (.node color left entry right)))
    (allocated : new.1 < dict.next) :
    ∃ dict', (do
        store (.node new.1) (Dnode.setParent (above path))
        let left ← load (.node entry.1) Dnode.left
        store (.node new.1) (Dnode.setChild .left left)
        let right ← load (.node entry.1) Dnode.right
        store (.node new.1) (Dnode.setChild .right right)
        let nextLeft ← load (.node new.1) Dnode.left
        store nextLeft (Dnode.setParent (.node new.1))
        let nextRight ← load (.node new.1) Dnode.right
        store nextRight (Dnode.setParent (.node new.1))
        let color ← load (.node entry.1) Dnode.color
        store (.node new.1) (Dnode.setColor color)
        store (.node entry.1) (Dnode.setColor old)
        relink (above path) (.node entry.1) (.node new.1) : DictM κ Unit) dict = .ok ((), dict') ∧
      Holds dict' (plug path (.node color left new right)) ∧
      (dict'.memory .nil).map Dnode.parent =
        (if address right = .nil then some (.node new.1)
          else (dict.memory .nil).map Dnode.parent) ∧
      dict'.memory (.node entry.1) =
        some (Dnode.linked .left (address left) (address right) (above path) old entry.2) ∧
      dict'.memory .null = dict.memory .null ∧ dict'.next = dict.next ∧
      dict'.nodecount = dict.nodecount := by
  obtain ⟨stored, around, distinct, bounded⟩ := holds_plug.mp holds
  obtain ⟨record, storedLeft, storedRight⟩ := stored
  change (addresses (plug path (join .left color left entry right))).Nodup at distinct
  change new.1 ∉ addresses (plug path (join .left color left entry right)) at fresh
  simp only [nodup_addresses_plug, nodup_addresses_join, mem_addresses_join,
    mem_addresses_plug] at distinct fresh
  obtain ⟨⟨notLeft, notRight, distinctLeft, distinctRight, apart⟩, distinctPath, outside⟩ := distinct
  obtain ⟨rightNode, foundRight, -⟩ := around.record storedRight
  obtain ⟨leftNode, foundLeft, -⟩ := around.record storedLeft
  have newEntry : new.1 ≠ entry.1 := fun same => fresh (.inl (.inl same))
  have newLeft : new.1 ∉ addresses left := fun member => fresh (.inl (.inr (.inl member)))
  have newRight : new.1 ∉ addresses right := fun member => fresh (.inl (.inr (.inr member)))
  have newPath : new.1 ∉ surroundings path := fun member => fresh (.inr member)
  have entryPath : entry.1 ∉ surroundings path := outside _ (.inl rfl)
  let taken := takenOver dict path color left right entry new old
  have sentinelTaken : taken.memory .nil = _ := takenOver_sentinel old nonempty
  have entryTaken : taken.memory (.node entry.1) = _ :=
    takenOver_entry old newEntry notLeft notRight record
  have newTaken : taken.memory (.node new.1) = _ :=
    takenOver_new old newEntry newLeft newRight found key
  have aroundTaken : Around taken.memory path (.node entry.1) := by
    refine around.congr ?_ ?_
    · intro a member
      apply takenOver_outside <;> grind [node_ne_address]
    · intro sentinel before
      rw [sentinelTaken, before]
      split
      · exact ⟨sentinel.setParent (.node new.1), rfl, rfl, rfl, rfl⟩
      · exact ⟨sentinel, rfl, rfl, rfl, rfl⟩
  have inside (a : Nat) (member : a ∈ addresses left ∨ a ∈ addresses right) :
      (taken.change (above path) (Dnode.setChild (holeSide path) (.node new.1))).memory (.node a) =
        taken.memory (.node a) := by
    rw [change_memory, if_neg (node_ne_above (by grind))]
  refine ⟨taken.change (above path) (Dnode.setChild (holeSide path) (.node new.1)), ?_,
    holds_plug.mpr ⟨⟨?_, storedLeft.adopt distinctLeft ?_ ?_, storedRight.adopt distinctRight ?_ ?_⟩,
      aroundTaken.relink distinctPath ?_ (relinked_change taken path (.node new.1)), ?_, ?_⟩,
    ?_, ?_, ?_, rfl, rfl⟩
  · rw [takeover_writes old newEntry newLeft notLeft notRight record found (by simp [foundLeft])
      (by simp [foundRight])]
    exact relink_run (.node new.1) aroundTaken entryPath
  · rw [change_memory, if_neg (node_ne_above newPath), newTaken]
  · intro a member notRoot
    rw [inside a (.inl member)]
    apply takenOver_outside <;> grind [node_ne_address]
  · intro full
    obtain ⟨root, member, same⟩ := exists_address full
    rw [same, inside root (.inl member)]
    grind [takenOver, change_memory, node_ne_address]
  · intro a member notRoot
    rw [inside a (.inr member)]
    apply takenOver_outside <;> grind [node_ne_address]
  · intro full
    obtain ⟨root, member, same⟩ := exists_address full
    rw [same, inside root (.inr member)]
    grind [takenOver, change_memory, node_ne_address]
  · grind [change_memory, node_ne_above, node_ne_address]
  · change (addresses (plug path (join .left color left new right))).Nodup
    simp only [nodup_addresses_plug, nodup_addresses_join, mem_addresses_join]
    grind
  · intro a member
    change a ∈ addresses (plug path (join .left color left new right)) at member
    simp only [mem_addresses_plug, mem_addresses_join] at member
    rcases member with (rfl | inside) | around
    · exact allocated
    · exact bounded a (mem_addresses_plug.mpr (.inl (mem_addresses_node.mpr (.inr inside))))
    · exact bounded a (mem_addresses_plug.mpr (.inr around))
  · obtain ⟨sentinel, foundSentinel, -⟩ := around.sentinel
    rw [parent_setChild, sentinelTaken, foundSentinel]
    split <;> rfl
  · rw [change_memory, if_neg (node_ne_above entryPath), entryTaken]
  · rw [change_memory, if_neg (above_ne_null path).symm]
    exact takenOver_outside old (by simp) (by simp) (address_ne_null left).symm
      (address_ne_null right).symm

end Takeover

/-- What splicing a node leaves: the tree without it around the gap, the parent of
the gap in the gap's subtree, and the colour of the gap in the node. -/
structure Spliced (dict : Dict κ) (target : Nat × κ) (gap : Gap (Nat × κ)) (dict' : Dict κ) :
    Prop where
  holds : Holds dict' (plug gap.path gap.only)
  parent : (dict'.memory (address gap.only)).map Dnode.parent = some (above gap.path)
  record : ∃ node, dict'.memory (.node target.1) = some node ∧ node.color = gap.color ∧
    node.key = some target.2
  null : dict'.memory .null = dict.memory .null
  next : dict'.next = dict.next
  nodecount : dict'.nodecount = dict.nodecount

/-- Splicing a node with one subtree at most. -/
theorem spliceNode_run {dict : Dict κ} {path : List (Frame (Nat × κ))} {side : Side}
    {color : Color} {only : RedBlack.Tree (Nat × κ)} {entry : Nat × κ}
    (holds : Holds dict (plug path (join side color only entry .nil))) :
    ∃ dict', spliceNode (.node entry.1) dict = .ok (address only, dict') ∧
      Spliced dict entry ⟨path, color, only⟩ dict' := by
  obtain ⟨stored, around, distinct, -⟩ := holds_plug.mp holds
  obtain ⟨record, -⟩ := stored_join.mp stored
  obtain ⟨dict', run, held, parent, untouched⟩ := unhook_run holds
  have kept : dict'.memory (.node entry.1) = dict.memory (.node entry.1) :=
    untouched.fresh (notMem_unhooked distinct)
  have rest (child : Pointer) (same : child = address only) : (do
      let delparent ← load (.node entry.1) Dnode.parent
      store child (Dnode.setParent delparent)
      relink delparent (.node entry.1) child
      pure child : DictM κ Pointer) dict = .ok (address only, dict') := by
    rw [load_bind record, parent_linked, same, ← bind_assoc, action_bind run]
    rfl
  refine ⟨dict', ?_, held, parent, ⟨_, kept.trans record, color_linked _ _ _ _ _ _,
    key_linked _ _ _ _ _ _⟩, untouched.null, untouched.next, untouched.nodecount⟩
  unfold spliceNode
  rw [load_bind record]
  split
  · next full =>
      rw [load_bind record]
      refine rest _ ?_
      cases side
      · rfl
      · exact absurd rfl full
  · next empty =>
      rw [load_bind record]
      refine rest _ ?_
      cases side
      · exact (not_not.mp empty).symm
      · rfl

/-- Splicing a node with two subtrees: its successor takes its place. -/
theorem spliceSuccessor_run {dict : Dict κ} {path : List (Frame (Nat × κ))} {color inner : Color}
    {left near far : RedBlack.Tree (Nat × κ)} {entry middle : Nat × κ}
    (holds : Holds dict (plug path (.node color left entry (.node inner near middle far))))
    (nonempty : left ≠ .nil) :
    ∃ dict', spliceSuccessor (.node entry.1) (above path) dict =
        .ok (address (gap path color left (.node inner near middle far)).only, dict') ∧
      Spliced dict entry (gap path color left (.node inner near middle far)) dict' := by
  obtain ⟨dict₁, runNext, held₁, untouched₁⟩ :=
    (rewrites_dictNext path color left _ entry holds.distinct).2 dict holds
  rw [head_first [], pointerTo] at runNext
  have first_plugged := plug_first [] inner near middle far
  rw [gap_successor path color inner near far middle nonempty]
  generalize first [] inner near middle far = next at runNext first_plugged
  -- the path to the successor, below the node that is taken out
  let below := next.path ++ ⟨.right, color, entry, left⟩ :: path
  have moved : plug below (join .right next.color next.right next.value .nil) =
      plug path (.node color left entry (.node inner near middle far)) := by
    rw [plug_append]
    change plug _ (plug next.path (.node next.color .nil next.value next.right)) = _
    rw [first_plugged]
    rfl
  rw [← moved] at held₁
  obtain ⟨stored₁, -, distinct₁, bounded₁⟩ := holds_plug.mp held₁
  obtain ⟨record₁, -⟩ := stored_join.mp stored₁
  obtain ⟨dict₂, runUnhook, held₂, parent₂, untouched₂⟩ := unhook_run held₁
  have fresh : next.value.1 ∉ addresses (plug below next.right) := notMem_unhooked distinct₁
  have record₂ : dict₂.memory (.node next.value.1) = some (Dnode.linked .right
      (address next.right) .nil (above below) next.color next.value.2) := by
    rw [untouched₂.fresh fresh, record₁]
    rfl
  have allocated : next.value.1 < dict₂.next := by
    rw [untouched₂.next]
    exact bounded₁ _ (mem_addresses_plug.mpr (.inl (mem_addresses_join.mpr (.inl rfl))))
  have opened : plug below next.right =
      plug path (.node color left entry (plug next.path next.right)) := by
    rw [plug_append]
    rfl
  rw [opened] at held₂ fresh
  obtain ⟨dict₃, runTakeover, held₃, nil₃, record₃, null₃, next₃, count₃⟩ :=
    takeover_run next.color held₂ nonempty record₂ (key_linked _ _ _ _ _ _) fresh allocated
  have closed : plug path (.node color left next.value (plug next.path next.right)) =
      plug (next.path ++ ⟨.right, color, next.value, left⟩ :: path) next.right := by
    rw [plug_append]
    rfl
  rw [closed] at held₃
  refine ⟨dict₃, ?_, held₃, ?_, ⟨_, record₃, color_linked _ _ _ _ _ _, key_linked _ _ _ _ _ _⟩,
    ?_, ?_, ?_⟩
  · unfold spliceSuccessor
    rw [action_bind runNext, load_bind record₁, load_bind record₁]
    refine (load_bind record₁ _ _).trans ?_
    rw [parent_linked, color_linked, ← bind_assoc]
    refine (action_bind runUnhook _).trans ?_
    have finished := action_bind runTakeover fun _ => pure (address next.right)
    simp only [bind_assoc] at finished
    exact finished
  · cases only : next.right with
    | nil =>
        rw [address, nil₃, only]
        cases above₂ : next.path with
        | nil => rfl
        | cons frame rest =>
            have full : plug (frame :: rest) (.nil : RedBlack.Tree (Nat × κ)) ≠ .nil :=
              plug_ne_nil rest (join_ne_nil _ _ _ _ _)
            obtain ⟨a, -, root⟩ := exists_address full
            rw [if_neg (by rw [root]; exact Pointer.node_ne_nil a)]
            rw [only] at parent₂
            refine parent₂.trans ?_
            simp only [below, above₂]
            rfl
    | node color left entry right =>
        rw [only] at held₃
        have record := (holds_plug.mp held₃).1.1
        rw [address, record]
        rfl
  · rw [null₃, untouched₂.null, untouched₁.null]
  · rw [next₃, untouched₂.next, untouched₁.next]
  · rw [count₃, untouched₂.nodecount, untouched₁.nodecount]

/-! ## Closing the gap -/

/-- The adjustments of a tree with a red root, and the black root in the end. -/
theorem deleteFixup_run {dict : Dict κ} (path : List (Frame (Nat × κ)))
    (short : RedBlack.Tree (Nat × κ))
    {height : Nat} (level : Level path (height + 1)) (isShort : path ≠ [] → Short short height)
    (redRoot : (plug path short).color = .red) (holds : Holds dict (plug path short))
    (parent : (dict.memory (address short)).map Dnode.parent = some (above path)) :
    ∃ dict', (do
        let fuel ← steps
        let child ← deleteLoop fuel (address short)
        store child (Dnode.setColor .black)
        let root ← dictRoot
        store root (Dnode.setColor .black) : DictM κ Unit) dict = .ok ((), dict') ∧
      Holds dict' (deleteFixup path short) ∧ Untouched (plug path short) dict dict' := by
  have enough : path.length ≤ dict.next := by
    have := length_le_inorder_plug path short
    have := holds.length_le
    omega
  obtain ⟨dict₁, tree', run, painted, held₁, untouched₁⟩ :=
    deleteLoop_run level isShort redRoot enough holds parent
  have blackened : Rewrites (do
      let root ← dictRoot
      store root (Dnode.setColor .black)) tree' () (tree'.paint .black) :=
    (rewrites_dictRoot tree').bind (rewrites_paint [] tree' .black fun _ => rfl)
  obtain ⟨dict', runRoot, held', untouched'⟩ := blackened.2 dict₁ held₁
  have same : tree'.inorder = (plug path short).inorder := by
    rw [← inorder_paint .black tree', painted, inorder_deleteFixup]
  refine ⟨dict', ?_, by rwa [← painted], untouched₁.trans untouched' same⟩
  rw [steps_bind]
  have finished := action_bind run fun _ => (do
    let root ← dictRoot
    store root (Dnode.setColor .black) : DictM κ Unit)
  rw [bind_assoc, runRoot] at finished
  exact finished

/-- In an empty tree the adjustments paint the sentinel red and black again. -/
theorem close_empty_run {dict : Dict κ} (holds : Holds dict (.nil : RedBlack.Tree (Nat × κ))) :
    ∃ dict', (do
        let root ← dictRoot
        store root (Dnode.setColor .red)
        let fuel ← steps
        let child ← deleteLoop fuel .nil
        store child (Dnode.setColor .black)
        let root ← dictRoot
        store root (Dnode.setColor .black) : DictM κ Unit) dict = .ok ((), dict') ∧
      Holds dict' (.nil : RedBlack.Tree (Nat × κ)) ∧
        Untouched (.nil : RedBlack.Tree (Nat × κ)) dict dict' := by
  obtain ⟨sentinel, found, root, right, color⟩ := holds.rooted
  have valid : (dict.memory .nil).isSome := by simp [found]
  let reddened := dict.change .nil (Dnode.setColor .red)
  have foundRed : reddened.memory .nil = some (sentinel.setColor .red) := by
    simp [reddened, change_memory, found]
  have foundBlack : (reddened.change .nil (Dnode.setColor .black)).memory .nil =
      some (sentinel.setColor .black) := by
    simp [change_memory, foundRed, Dnode.setColor]
  have exits : deleteLoop (dict.next + 1) .nil reddened = .ok (.nil, reddened) := by
    unfold deleteLoop
    rw [load_bind foundRed]
    rfl
  refine ⟨(reddened.change .nil (Dnode.setColor .black)).change .nil (Dnode.setColor .black), ?_,
    ⟨trivial, ⟨(sentinel.setColor .black).setColor .black, ?_, root, right, rfl⟩, by simp, by simp⟩,
    rfl, rfl, ?_⟩
  · rw [dictRoot, load_bind found, root, address, store_bind valid, steps_bind]
    refine (action_bind exits _).trans ?_
    have again : (sentinel.setColor .black).left = .nil := root
    rw [store_bind (by simpa [reddened] using valid), load_bind foundBlack, again]
    exact store_run (by simpa [reddened] using valid) _
  · rw [change_memory, if_pos rfl, foundBlack]
    rfl
  · intro pointer inner _
    simp [reddened, change_memory, inner]

/-- With the root painted red the adjustments close the gap of a black node. -/
theorem close_black_run {dict : Dict κ} {path : List (Frame (Nat × κ))} {side : Side}
    {only : RedBlack.Tree (Nat × κ)} {value : Nat × κ} (holds : Holds dict (plug path only))
    (parent : (dict.memory (address only)).map Dnode.parent = some (above path))
    (balanced : IsRedBlack (plug path (join side .black only value .nil))) :
    ∃ dict', (do
        let root ← dictRoot
        store root (Dnode.setColor .red)
        let fuel ← steps
        let child ← deleteLoop fuel (address only)
        store child (Dnode.setColor .black)
        let root ← dictRoot
        store root (Dnode.setColor .black) : DictM κ Unit) dict = .ok ((), dict') ∧
      Holds dict' (deleteFixup path only) ∧ Untouched (plug path only) dict dict' := by
  by_cases empty : plug path only = .nil
  · have top : path = [] := by
      cases path with
      | nil => rfl
      | cons frame path => exact absurd empty (plug_ne_nil path (join_ne_nil _ _ _ _ _))
    subst top
    rw [plug_nil] at empty
    subst empty
    exact close_empty_run holds
  · obtain ⟨sentinel, found, root, -⟩ := holds.rooted
    obtain ⟨height, fits, balancedNode, -⟩ := isRedBlack_plug_iff.mp balanced
    obtain ⟨below, rfl⟩ := balancedNode.pos_of_black
    obtain ⟨balancedOnly, -⟩ := balanced_black_iff.mp balancedNode
    obtain ⟨dict₁, runPaint, held₁, untouched₁⟩ :=
      (rewrites_paint [] (plug path only) .red fun isEmpty => absurd isEmpty empty).2 dict holds
    -- a colour is painted over, and no parent changes
    have painted : dict₁ = dict.change (address (plug path only)) (Dnode.setColor .red) := by
      obtain ⟨node, foundRoot, -⟩ := holds.rooted.record holds.stored
      rw [store_run (by simp [foundRoot])] at runPaint
      exact (congrArg Prod.snd (Except.ok.inj runPaint)).symm
    have parent₁ : (dict₁.memory (address only)).map Dnode.parent = some (above path) := by
      rw [← parent, painted, change_memory]
      split
      · cases dict.memory (address only) <;> rfl
      · rfl
    have redRoot : ((plug path only).paint .red).color = .red := by
      cases whole : plug path only with
      | nil => exact absurd whole empty
      | node => rfl
    have closed : ∃ dict', (do
        let fuel ← steps
        let child ← deleteLoop fuel (address only)
        store child (Dnode.setColor .black)
        let root ← dictRoot
        store root (Dnode.setColor .black) : DictM κ Unit) dict₁ = .ok ((), dict') ∧
        Holds dict' (deleteFixup path only) ∧
        Untouched ((plug path only).paint .red) dict₁ dict' := by
      cases path with
      | nil =>
          have run := deleteFixup_run [] (only.paint .red) (show Level [] (0 + 1) from trivial)
            (fun contradiction => absurd rfl contradiction) redRoot held₁
            (by rwa [address_paint])
          rw [address_paint, deleteFixup, paint_paint] at run
          exact run
      | cons frame path =>
          rw [plug_nil, ← plug_paintLast .red (by simp)] at held₁
          rw [← plug_paintLast .red (by simp)] at redRoot
          have run := deleteFixup_run _ _ (fits.level.paintLast .red) (fun _ => balancedOnly.short)
            redRoot held₁ (by rw [above_paintLast]; exact parent₁)
          rw [deleteFixup_paintLast, plug_paintLast .red (by simp)] at run
          exact run
    obtain ⟨dict', run, held', untouched'⟩ := closed
    refine ⟨dict', ?_, held', untouched₁.trans untouched' (inorder_paint _ _)⟩
    rw [dictRoot, load_bind found, root]
    exact (action_bind runPaint _).trans run

/-- Splicing any node. -/
theorem splice_run {dict : Dict κ} {path : List (Frame (Nat × κ))} {color : Color}
    {left right : RedBlack.Tree (Nat × κ)} {entry : Nat × κ}
    (holds : Holds dict (plug path (.node color left entry right))) :
    ∃ dict', (if address left ≠ .nil ∧ address right ≠ .nil
        then spliceSuccessor (.node entry.1) (above path) else spliceNode (.node entry.1)) dict =
        .ok (address (gap path color left right).only, dict') ∧
      Spliced dict entry (gap path color left right) dict' := by
  cases right with
  | nil =>
      rw [if_neg (by simp [address])]
      have run := spliceNode_run (show Holds dict (plug path (join .left color left entry .nil))
        from holds)
      cases left <;> exact run
  | node inner near middle far =>
      cases left with
      | nil =>
          rw [if_neg (by simp [address])]
          exact spliceNode_run (show Holds dict (plug path (join .right color
            (.node inner near middle far) entry .nil)) from holds)
      | node =>
          rw [if_pos (by simp [address])]
          exact spliceSuccessor_run holds (join_ne_nil .left _ _ _ _)

/-- The rest of a deletion after the splice. -/
theorem unlink_run {dict dict₁ : Dict κ} {target : Nat × κ} {gap : Gap (Nat × κ)} {side : Side}
    {value : Nat × κ} (spliced : Spliced dict target gap dict₁)
    (balanced : IsRedBlack (plug gap.path (join side gap.color gap.only value .nil)))
    (outside : target.1 ∉ addresses (plug gap.path gap.only)) :
    ∃ dict', (do
        store (.node target.1) Dnode.unlink
        modify fun dict => { dict with nodecount := dict.nodecount - 1 }
        let targetColor ← load (.node target.1) Dnode.color
        if targetColor = .black then
          let root ← dictRoot
          store root (Dnode.setColor .red)
          let fuel ← steps
          let child ← deleteLoop fuel (address gap.only)
          store child (Dnode.setColor .black)
          let root ← dictRoot
          store root (Dnode.setColor .black)
        pure (.node target.1) : DictM κ Pointer) dict₁ = .ok (.node target.1, dict') ∧
      Holds dict' (close gap.path gap.color gap.only) ∧
      (∃ node, dict'.memory (.node target.1) = some node ∧ node.key = some target.2) ∧
      dict'.memory .null = dict.memory .null ∧ dict'.next = dict.next ∧
      dict'.nodecount = dict.nodecount - 1 := by
  obtain ⟨path, color, only⟩ := gap
  obtain ⟨node, found, nodeColor, key⟩ := spliced.record
  let unlinked : Dict κ := { dict₁.change (.node target.1) Dnode.unlink with
    nodecount := dict₁.nodecount - 1 }
  have foundUnlinked : unlinked.memory (.node target.1) = some node.unlink := by
    simp [unlinked, change_memory, found]
  have heldUnlinked : Holds unlinked (plug path only) :=
    spliced.holds.write_fresh outside (fun pointer other => by simp [unlinked, change_memory, other])
      le_rfl
  have null : unlinked.memory .null = dict.memory .null := by
    simp [unlinked, change_memory, spliced.null]
  have count : unlinked.nodecount = dict.nodecount - 1 := by
    simp [unlinked, spliced.nodecount]
  cases color with
  | red =>
      refine ⟨unlinked, ?_, heldUnlinked, ⟨_, foundUnlinked, key⟩, null, spliced.next, count⟩
      rw [store_bind (by simp [found]), modify_bind]
      refine (load_bind foundUnlinked _ _).trans ?_
      rw [show node.unlink.color = .red from nodeColor]
      rfl
  | black =>
      have parent : (unlinked.memory (address only)).map Dnode.parent = some (above path) := by
        have apart : Pointer.node target.1 ≠ address only := node_ne_address fun inside =>
          outside (mem_addresses_plug.mpr (.inl inside))
        rw [← spliced.parent]
        simp only [unlinked, change_memory, if_neg apart.symm]
      obtain ⟨dict', run, held, untouched⟩ := close_black_run heldUnlinked parent balanced
      refine ⟨dict', ?_, held, ⟨node.unlink, ?_, key⟩, ?_, ?_, ?_⟩
      · rw [store_bind (by simp [found]), modify_bind]
        refine (load_bind foundUnlinked _ _).trans ?_
        rw [show node.unlink.color = .black from nodeColor]
        have finished := action_bind run fun _ => pure (Pointer.node target.1)
        simp only [bind_assoc] at finished
        exact finished
      · rw [untouched.fresh outside, foundUnlinked]
      · rw [untouched.null, null]
      · rw [untouched.next]
        exact spliced.next
      · rw [untouched.nodecount, count]

/-- The address of a node occurs nowhere else in its tree. -/
theorem removed_absent {path : List (Frame (Nat × κ))} {color : Color}
    {left right : RedBlack.Tree (Nat × κ)} {entry : Nat × κ}
    (distinct : (addresses (plug path (.node color left entry right))).Nodup) :
    entry.1 ∉ (before path ++ (left.inorder ++ right.inorder) ++ after path).map Prod.fst := by
  rw [addresses, inorder_plug, inorder_node] at distinct
  simp only [List.map_append, List.map_cons, List.nodup_append, List.nodup_cons, List.mem_append,
    List.mem_cons] at distinct ⊢
  grind

/-- `dict_delete` takes one node out of the tree and leaves its key in it. -/
theorem dictDelete_run {dict : Dict κ} {path : List (Frame (Nat × κ))} {color : Color}
    {left right : RedBlack.Tree (Nat × κ)} {entry : Nat × κ}
    (holds : Holds dict (plug path (.node color left entry right)))
    (redBlack : IsRedBlack (plug path (.node color left entry right))) :
    ∃ dict', dictDelete (.node entry.1) dict = .ok (.node entry.1, dict') ∧
      Holds dict' (remove path color left right) ∧
      (∃ node, dict'.memory (.node entry.1) = some node ∧ node.key = some entry.2) ∧
      dict'.memory .null = dict.memory .null ∧ dict'.next = dict.next ∧
      dict'.nodecount = dict.nodecount - 1 := by
  have record := (stored_join.mp (show Stored dict.memory (above path)
    (join .left color left entry right) from (holds_plug.mp holds).1)).1
  obtain ⟨side, value, balanced⟩ := isRedBlack_gap redBlack
  obtain ⟨dict₁, run, spliced⟩ := splice_run holds
  have outside : entry.1 ∉ addresses (plug (gap path color left right).path
      (gap path color left right).only) := by
    rw [addresses, inorder_gap]
    exact removed_absent holds.distinct
  obtain ⟨dict', runRest, held, key, null, next, count⟩ := unlink_run spliced balanced outside
  refine ⟨dict', ?_, held, key, null, next, count⟩
  unfold dictDelete
  rw [load_bind record, load_bind record]
  refine (load_bind record _ _).trans ?_
  rw [parent_linked]
  split
  · next full =>
      have both : address left ≠ .nil ∧ address right ≠ .nil := full
      rw [if_pos both] at run
      exact (action_bind run _).trans runRest
  · next notFull =>
      have either : ¬(address left ≠ .nil ∧ address right ≠ .nil) := notFull
      rw [if_neg either] at run
      exact (action_bind run _).trans runRest

/-- `dict_delete_free` also frees the node, whose key `free_dict` still reads. -/
theorem dictDeleteFree_run {dict : Dict κ} {path : List (Frame (Nat × κ))} {color : Color}
    {left right : RedBlack.Tree (Nat × κ)} {entry : Nat × κ}
    (holds : Holds dict (plug path (.node color left entry right)))
    (redBlack : IsRedBlack (plug path (.node color left entry right))) :
    ∃ dict', dictDeleteFree (.node entry.1) dict = .ok ((), dict') ∧
      Holds dict' (remove path color left right) ∧ dict'.memory .null = dict.memory .null ∧
      dict'.nodecount = dict.nodecount - 1 := by
  obtain ⟨dict₁, run, held, ⟨node, found, key⟩, null, -, count⟩ := dictDelete_run holds redBlack
  let freed : Dict κ := { dict₁ with
    memory := fun pointer => if pointer = .node entry.1 then none else dict₁.memory pointer }
  have outside : entry.1 ∉ addresses (remove path color left right) := by
    rw [addresses, inorder_remove]
    exact removed_absent holds.distinct
  have heldFreed : Holds freed (remove path color left right) :=
    held.write_fresh outside (fun pointer other => if_neg other) le_rfl
  refine ⟨freed, ?_, heldFreed, ?_, count⟩
  · unfold dictDeleteFree freeDict loadKey
    rw [action_bind run, bind_assoc, load_bind found, key]
    rfl
  · simp [freed, null]

/-- A deletion through the null pointer faults at its first access. -/
theorem dictDeleteFree_null {dict : Dict κ} (null : dict.memory .null = none) :
    dictDeleteFree .null dict = .error .nullPointer := by
  have first : load .null Dnode.parent dict = .error .nullPointer := by
    rw [load, null]
    rfl
  have deletion : dictDelete .null dict = .error .nullPointer := by
    rw [dictDelete]
    exact fault_bind first _
  rw [dictDeleteFree]
  exact fault_bind deletion _

end M2Handler.Adt

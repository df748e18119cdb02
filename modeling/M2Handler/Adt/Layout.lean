import M2Handler.Adt.Dictionary
import M2Handler.RedBlack.Update

/-!
# Trees laid out in the memory of a dictionary

The value of a tree node is its address and its key.  A dictionary holds a tree
when every node of the tree stands at its address with the links, the parent, the
colour and the key that the tree gives it, and the sentinel links to the root.
Only the parent of the sentinel is left open, since the source writes to it
whenever it moves an empty subtree.
-/

namespace M2Handler.Adt

open M2Handler.Machine M2Handler.RedBlack M2Handler.RedBlack.Tree

variable {κ β γ : Type}

/-! ## Records seen from one side -/

/-- The record of a node, seen from one side. -/
def Dnode.linked (side : Side) (near far parent : Pointer) (color : Color) (key : κ) : Dnode κ :=
  match side with
  | .left => { left := near, right := far, parent, color, key := some key }
  | .right => { left := far, right := near, parent, color, key := some key }

section Linked

variable (side : Side) (near far parent pointer : Pointer) (color painted : Color) (key : κ)

@[simp] theorem child_linked : (Dnode.linked side near far parent color key).child side = near := by
  cases side <;> rfl

@[simp] theorem child_other_linked :
    (Dnode.linked side near far parent color key).child side.other = far := by
  cases side <;> rfl

@[simp] theorem parent_linked : (Dnode.linked side near far parent color key).parent = parent := by
  cases side <;> rfl

@[simp] theorem color_linked : (Dnode.linked side near far parent color key).color = color := by
  cases side <;> rfl

@[simp] theorem key_linked : (Dnode.linked side near far parent color key).key = some key := by
  cases side <;> rfl

@[simp] theorem setChild_linked :
    (Dnode.linked side near far parent color key).setChild side pointer =
      Dnode.linked side pointer far parent color key := by
  cases side <;> rfl

@[simp] theorem setChild_other_linked :
    (Dnode.linked side near far parent color key).setChild side.other pointer =
      Dnode.linked side near pointer parent color key := by
  cases side <;> rfl

@[simp] theorem setParent_linked :
    (Dnode.linked side near far parent color key).setParent pointer =
      Dnode.linked side near far pointer color key := by
  cases side <;> rfl

@[simp] theorem setColor_linked :
    (Dnode.linked side near far parent color key).setColor painted =
      Dnode.linked side near far parent painted key := by
  cases side <;> rfl

/-- A node's left link tells on which side of it a child is. -/
theorem side_of_linked (apart : near ≠ far) :
    (if near = (Dnode.linked side near far parent color key).left then Side.left
      else Side.right) = side := by
  cases side
  · exact if_pos rfl
  · exact if_neg apart

end Linked

/-! ## Addresses -/

def address : RedBlack.Tree (Nat × κ) → Pointer
  | .nil => .nil
  | .node _ _ entry _ => .node entry.1

def above : List (Frame (Nat × κ)) → Pointer
  | [] => .nil
  | frame :: _ => .node frame.value.1

@[simp] theorem above_ne_null (path : List (Frame (Nat × κ))) : above path ≠ .null := by
  intro same
  cases path <;> cases same

@[simp] theorem address_ne_null (tree : RedBlack.Tree (Nat × κ)) : address tree ≠ .null := by
  intro same
  cases tree <;> cases same

@[simp] theorem above_paintLast (color : Color) (path : List (Frame (Nat × κ))) :
    above (paintLast color path) = above path := by
  match path with
  | [] => rfl
  | [_] => rfl
  | _ :: _ :: _ => rfl

def addresses (tree : RedBlack.Tree (Nat × κ)) : List Nat := tree.inorder.map Prod.fst

def surroundings (path : List (Frame (Nat × κ))) : List Nat :=
  (before path).map Prod.fst ++ (after path).map Prod.fst

@[simp] theorem address_join (side : Side) (color : Color) (near far : RedBlack.Tree (Nat × κ))
    (entry : Nat × κ) : address (join side color near entry far) = .node entry.1 := by
  cases side <;> rfl

@[simp] theorem address_paint (color : Color) (tree : RedBlack.Tree (Nat × κ)) :
    address (tree.paint color) = address tree := by
  cases tree <;> rfl

@[simp] theorem addresses_nil : addresses (.nil : RedBlack.Tree (Nat × κ)) = [] :=
  rfl

@[simp] theorem mem_addresses_join {side : Side} {color : Color}
    {near far : RedBlack.Tree (Nat × κ)}
    {entry : Nat × κ} {a : Nat} :
    a ∈ addresses (join side color near entry far) ↔
      a = entry.1 ∨ a ∈ addresses near ∨ a ∈ addresses far := by
  cases side <;> simp [addresses, join] <;> tauto

@[simp] theorem surroundings_nil : surroundings ([] : List (Frame (Nat × κ))) = [] :=
  rfl

@[simp] theorem mem_surroundings_cons {frame : Frame (Nat × κ)} {path : List (Frame (Nat × κ))}
    {a : Nat} :
    a ∈ surroundings (frame :: path) ↔
      a = frame.value.1 ∨ a ∈ addresses frame.sibling ∨ a ∈ surroundings path := by
  obtain ⟨side, color, value, sibling⟩ := frame
  cases side <;> simp [addresses, surroundings, before, after] <;> tauto

theorem mem_addresses_node {color : Color} {left right : RedBlack.Tree (Nat × κ)} {entry : Nat × κ}
    {a : Nat} :
    a ∈ addresses (node color left entry right) ↔
      a = entry.1 ∨ a ∈ addresses left ∨ a ∈ addresses right := by
  simp [addresses]
  tauto

/-- The addresses of a node are distinct when its own is in neither subtree and
the subtrees share none. -/
@[simp] theorem nodup_addresses_join {side : Side} {color : Color}
    {near far : RedBlack.Tree (Nat × κ)}
    {entry : Nat × κ} :
    (addresses (join side color near entry far)).Nodup ↔
      entry.1 ∉ addresses near ∧ entry.1 ∉ addresses far ∧ (addresses near).Nodup ∧
        (addresses far).Nodup ∧ ∀ a ∈ addresses near, a ∉ addresses far := by
  cases side <;>
    simp only [addresses, join, inorder_node, List.map_append, List.map_cons, List.nodup_append,
      List.nodup_cons, List.mem_cons] <;>
    grind

theorem nodup_surroundings_cons {frame : Frame (Nat × κ)} {path : List (Frame (Nat × κ))} :
    (surroundings (frame :: path)).Nodup ↔
      frame.value.1 ∉ addresses frame.sibling ∧ frame.value.1 ∉ surroundings path ∧
        (addresses frame.sibling).Nodup ∧ (surroundings path).Nodup ∧
        ∀ a ∈ addresses frame.sibling, a ∉ surroundings path := by
  obtain ⟨side, color, value, sibling⟩ := frame
  cases side <;>
    simp only [surroundings, addresses, before, after, List.map_append, List.map_cons,
      List.nodup_append, List.nodup_cons, List.mem_cons, List.mem_append, List.append_nil,
      List.nil_append, List.map_nil, List.cons_append] <;>
    grind

/-- The addresses of a tree are distinct when a subtree and its surroundings share
none. -/
theorem nodup_addresses_plug {path : List (Frame (Nat × κ))} {tree : RedBlack.Tree (Nat × κ)} :
    (addresses (plug path tree)).Nodup ↔
      (addresses tree).Nodup ∧ (surroundings path).Nodup ∧
        ∀ a ∈ addresses tree, a ∉ surroundings path := by
  simp only [addresses, inorder_plug, surroundings, List.map_append, List.nodup_append,
    List.mem_append]
  grind

theorem node_ne_address {tree : RedBlack.Tree (Nat × κ)} {a : Nat} (absent : a ∉ addresses tree) :
    Pointer.node a ≠ address tree := by
  cases tree with
  | nil => simp [address]
  | node color left entry right =>
      intro same
      exact absent (by simp [addresses, Pointer.node.inj same])

theorem node_ne_above {path : List (Frame (Nat × κ))} {a : Nat} (absent : a ∉ surroundings path) :
    Pointer.node a ≠ above path := by
  cases path with
  | nil => simp [above]
  | cons frame path =>
      intro same
      exact absent (by simp [Pointer.node.inj same])

@[simp] theorem mem_addresses_plug {path : List (Frame (Nat × κ))} {tree : RedBlack.Tree (Nat × κ)}
    {a : Nat} : a ∈ addresses (plug path tree) ↔ a ∈ addresses tree ∨ a ∈ surroundings path := by
  simp only [addresses, surroundings, inorder_plug, List.map_append, List.mem_append]
  tauto

/-- The root of a nonempty tree is one of its nodes. -/
theorem exists_address {tree : RedBlack.Tree (Nat × κ)} (nonempty : tree ≠ .nil) :
    ∃ a ∈ addresses tree, address tree = .node a := by
  cases tree with
  | nil => exact absurd rfl nonempty
  | node color left entry right => exact ⟨entry.1, by simp [addresses], rfl⟩

/-- Two subtrees of a node have different roots unless both are empty. -/
theorem address_ne_address {side : Side} {color : Color} {near far : RedBlack.Tree (Nat × κ)}
    {entry : Nat × κ} (distinct : (addresses (join side color near entry far)).Nodup)
    (nonempty : far ≠ .nil) : address near ≠ address far := by
  obtain ⟨a, member, root⟩ := exists_address nonempty
  rw [root]
  exact (node_ne_address fun inside =>
    (nodup_addresses_join.mp distinct).2.2.2.2 a inside member).symm

/-- The parent of a subtree with a path above it is one of the surroundings. -/
theorem exists_above {path : List (Frame (Nat × κ))} (below : path ≠ []) :
    ∃ a ∈ surroundings path, above path = .node a := by
  cases path with
  | nil => exact absurd rfl below
  | cons frame path => exact ⟨_, mem_surroundings_cons.mpr (.inl rfl), rfl⟩

/-! ## Holding a tree -/

/-- A subtree stands in a memory under a parent. -/
def Stored (memory : Pointer → Option (Dnode κ)) (parent : Pointer) : RedBlack.Tree (Nat × κ) → Prop
  | .nil => True
  | .node color left entry right =>
      memory (.node entry.1) =
          some (Dnode.linked .left (address left) (address right) parent color entry.2) ∧
        Stored memory (.node entry.1) left ∧ Stored memory (.node entry.1) right

/-- The nodes around a subtree stand in a memory, with a pointer to it. -/
def Around (memory : Pointer → Option (Dnode κ)) : List (Frame (Nat × κ)) → Pointer → Prop
  | [], root =>
      ∃ sentinel, memory .nil = some sentinel ∧ sentinel.left = root ∧ sentinel.right = .nil ∧
        sentinel.color = .black
  | frame :: path, hole =>
      memory (.node frame.value.1) =
          some (Dnode.linked frame.side hole (address frame.sibling) (above path) frame.color
            frame.value.2) ∧
        Stored memory (.node frame.value.1) frame.sibling ∧
        Around memory path (.node frame.value.1)

structure Holds (dict : Dict κ) (tree : RedBlack.Tree (Nat × κ)) : Prop where
  stored : Stored dict.memory .nil tree
  rooted : Around dict.memory [] (address tree)
  distinct : (addresses tree).Nodup
  allocated : ∀ a ∈ addresses tree, a < dict.next

/-- There are no more addresses than were ever allocated. -/
theorem length_le_of_allocated {allocated : List Nat} {next : Nat} (distinct : allocated.Nodup)
    (below : ∀ a ∈ allocated, a < next) : allocated.length ≤ next := by
  have within : allocated ⊆ List.range next := fun a member => List.mem_range.mpr (below a member)
  simpa using (List.Nodup.subperm distinct within).length_le

/-- A dictionary holds no more nodes than were ever allocated. -/
theorem Holds.length_le {dict : Dict κ} {tree : RedBlack.Tree (Nat × κ)} (holds : Holds dict tree) :
    tree.inorder.length ≤ dict.next := by
  simpa [addresses] using length_le_of_allocated holds.distinct holds.allocated

variable {memory memory' : Pointer → Option (Dnode κ)} {parent hole : Pointer}
  {tree : RedBlack.Tree (Nat × κ)} {path : List (Frame (Nat × κ))}

theorem stored_join {side : Side} {color : Color} {near far : RedBlack.Tree (Nat × κ)}
    {entry : Nat × κ} :
    Stored memory parent (join side color near entry far) ↔
      memory (.node entry.1) =
          some (Dnode.linked side (address near) (address far) parent color entry.2) ∧
        Stored memory (.node entry.1) near ∧ Stored memory (.node entry.1) far := by
  cases side
  · exact Iff.rfl
  · exact ⟨fun ⟨record, left, right⟩ => ⟨record, right, left⟩,
      fun ⟨record, left, right⟩ => ⟨record, right, left⟩⟩

/-- A tree is stored whole exactly when a subtree and its surroundings are. -/
theorem stored_plug :
    Stored memory .nil (plug path tree) ∧ Around memory [] (address (plug path tree)) ↔
      Stored memory (above path) tree ∧ Around memory path (address tree) := by
  induction path generalizing tree with
  | nil => exact Iff.rfl
  | cons frame path ih =>
      rw [plug_cons, ih, Frame.fill, stored_join, address_join]
      simp only [Around, above]
      tauto

theorem holds_plug {dict : Dict κ} :
    Holds dict (plug path tree) ↔
      Stored dict.memory (above path) tree ∧ Around dict.memory path (address tree) ∧
        (addresses (plug path tree)).Nodup ∧ ∀ a ∈ addresses (plug path tree), a < dict.next := by
  constructor
  · intro holds
    obtain ⟨stored, around⟩ := stored_plug.mp ⟨holds.stored, holds.rooted⟩
    exact ⟨stored, around, holds.distinct, holds.allocated⟩
  · rintro ⟨stored, around, distinct, allocated⟩
    obtain ⟨whole, rooted⟩ := stored_plug.mpr ⟨stored, around⟩
    exact ⟨whole, rooted, distinct, allocated⟩

/-- A memory stores one tree only at a root. -/
theorem Stored.unique {parent' : Pointer} {tree' : RedBlack.Tree (Nat × κ)}
    (stored : Stored memory parent tree) (stored' : Stored memory parent' tree')
    (root : address tree = address tree') : tree = tree' := by
  induction tree generalizing parent parent' tree' with
  | nil =>
      cases tree' with
      | nil => rfl
      | node color' left' entry' right' => cases root
  | node color left entry right ihLeft ihRight =>
      cases tree' with
      | nil => cases root
      | node color' left' entry' right' =>
          obtain ⟨record, storedLeft, storedRight⟩ := stored
          obtain ⟨record', storedLeft', storedRight'⟩ := stored'
          have place : entry.1 = entry'.1 := Pointer.node.inj root
          rw [place, record'] at record
          simp only [Dnode.linked, Option.some.injEq, Dnode.mk.injEq] at record
          obtain ⟨near, far, -, rfl, key⟩ := record
          rw [ihLeft storedLeft storedLeft' near.symm, ihRight storedRight storedRight' far.symm,
            Prod.ext place key.symm]

/-- A dictionary holds one tree only. -/
theorem Holds.unique {dict : Dict κ} {tree tree' : RedBlack.Tree (Nat × κ)}
    (holds : Holds dict tree)
    (holds' : Holds dict tree') : tree = tree' := by
  obtain ⟨sentinel, found, root, -⟩ := holds.rooted
  obtain ⟨sentinel', found', root', -⟩ := holds'.rooted
  rw [found] at found'
  cases found'
  exact holds.stored.unique holds'.stored (root.symm.trans root')

/-- A subtree depends on the records of its own nodes only. -/
theorem Stored.congr (stored : Stored memory parent tree)
    (same : ∀ a ∈ addresses tree, memory' (.node a) = memory (.node a)) :
    Stored memory' parent tree := by
  induction tree generalizing parent with
  | nil => trivial
  | node color left entry right ihLeft ihRight =>
      obtain ⟨record, storedLeft, storedRight⟩ := stored
      refine ⟨?_, ihLeft storedLeft ?_, ihRight storedRight ?_⟩
      · rw [same _ (mem_addresses_node.mpr (.inl rfl)), record]
      · exact fun a inLeft => same a (mem_addresses_node.mpr (.inr (.inl inLeft)))
      · exact fun a inRight => same a (mem_addresses_node.mpr (.inr (.inr inRight)))

/-- A subtree under another parent. -/
theorem Stored.adopt {adoptive : Pointer} (stored : Stored memory parent tree)
    (distinct : (addresses tree).Nodup)
    (same : ∀ a ∈ addresses tree, .node a ≠ address tree → memory' (.node a) = memory (.node a))
    (moved : tree ≠ .nil →
      memory' (address tree) = (memory (address tree)).map (Dnode.setParent adoptive)) :
    Stored memory' adoptive tree := by
  cases tree with
  | nil => trivial
  | node color left entry right =>
      obtain ⟨record, storedLeft, storedRight⟩ := stored
      change (addresses (join .left color left entry right)).Nodup at distinct
      obtain ⟨notLeft, notRight, -⟩ := nodup_addresses_join.mp distinct
      have away {a : Nat} (other : a ≠ entry.1) :
          Pointer.node a ≠ address (.node color left entry right) :=
        fun equal => other (Pointer.node.inj equal)
      refine ⟨?_, storedLeft.congr ?_, storedRight.congr ?_⟩
      · change memory' (address (.node color left entry right)) = _
        rw [moved (join_ne_nil .left _ _ _ _), address, record, Option.map_some, setParent_linked]
      · exact fun a inLeft => same a (mem_addresses_node.mpr (.inr (.inl inLeft)))
          (away fun equal => notLeft (equal ▸ inLeft))
      · exact fun a inRight => same a (mem_addresses_node.mpr (.inr (.inr inRight)))
          (away fun equal => notRight (equal ▸ inRight))

/-- The sentinel keeps what a layout asks of it. -/
def SameSentinel (memory memory' : Pointer → Option (Dnode κ)) : Prop :=
  ∀ sentinel, memory .nil = some sentinel →
    ∃ sentinel', memory' .nil = some sentinel' ∧ sentinel'.left = sentinel.left ∧
      sentinel'.right = sentinel.right ∧ sentinel'.color = sentinel.color

/-- Surroundings depend on the records of their own nodes and the sentinel. -/
theorem Around.congr (around : Around memory path hole)
    (same : ∀ a ∈ surroundings path, memory' (.node a) = memory (.node a))
    (sentinel : SameSentinel memory memory') : Around memory' path hole := by
  induction path generalizing hole with
  | nil =>
      obtain ⟨old, found, left, right, color⟩ := around
      obtain ⟨new, found', left', right', color'⟩ := sentinel old found
      exact ⟨new, found', left'.trans left, right'.trans right, color'.trans color⟩
  | cons frame path ih =>
      obtain ⟨record, sibling, around⟩ := around
      refine ⟨?_, sibling.congr ?_, ih around ?_⟩
      · rw [same _ (mem_surroundings_cons.mpr (.inl rfl)), record]
      · exact fun a member => same a (mem_surroundings_cons.mpr (.inr (.inl member)))
      · exact fun a member => same a (mem_surroundings_cons.mpr (.inr (.inr member)))

/-- The parent's link to the subtree, which is the root link of the sentinel at
the end of the path. -/
def Relinked (memory memory' : Pointer → Option (Dnode κ)) :
    List (Frame (Nat × κ)) → Pointer → Prop
  | [], new =>
      ∀ sentinel, memory .nil = some sentinel →
        ∃ sentinel', memory' .nil = some sentinel' ∧ sentinel'.left = new ∧
          sentinel'.right = sentinel.right ∧ sentinel'.color = sentinel.color
  | frame :: _, new =>
      SameSentinel memory memory' ∧
        memory' (.node frame.value.1) =
          (memory (.node frame.value.1)).map (Dnode.setChild frame.side new)

/-- A node that the tree does not have can be written freely. -/
theorem Holds.write_fresh {dict dict' : Dict κ} {tree : RedBlack.Tree (Nat × κ)} {a : Nat}
    (holds : Holds dict tree) (fresh : a ∉ addresses tree)
    (same : ∀ pointer, pointer ≠ .node a → dict'.memory pointer = dict.memory pointer)
    (next : dict.next ≤ dict'.next) : Holds dict' tree := by
  refine ⟨holds.stored.congr fun b member => ?_, holds.rooted.congr (by simp) ?_, holds.distinct,
    fun b member => lt_of_lt_of_le (holds.allocated b member) next⟩
  · exact same _ fun equal => fresh (Pointer.node.inj equal ▸ member)
  · intro sentinel found
    exact ⟨sentinel, (same _ (Pointer.node_ne_nil a).symm).trans found, rfl, rfl, rfl⟩

/-- Only the records of the parent and the sentinel are in question. -/
theorem Relinked.congr {memory'' : Pointer → Option (Dnode κ)} {new : Pointer}
    (relinked : Relinked memory memory' path new) (sentinel : memory'' .nil = memory' .nil)
    (parent : memory'' (above path) = memory' (above path)) :
    Relinked memory memory'' path new := by
  cases path with
  | nil =>
      intro old found
      rw [sentinel]
      exact relinked old found
  | cons frame path =>
      refine ⟨fun old found => ?_, parent.trans relinked.2⟩
      rw [sentinel]
      exact relinked.1 old found

/-- Surroundings with a pointer to another subtree. -/
theorem Around.relink {new : Pointer} (around : Around memory path hole)
    (distinct : (surroundings path).Nodup)
    (same : ∀ a ∈ surroundings path, .node a ≠ above path → memory' (.node a) = memory (.node a))
    (relinked : Relinked memory memory' path new) : Around memory' path new := by
  cases path with
  | nil =>
      obtain ⟨old, found, left, right, color⟩ := around
      obtain ⟨sentinel, found', left', right', color'⟩ := relinked old found
      exact ⟨sentinel, found', left', right'.trans right, color'.trans color⟩
  | cons frame path =>
      obtain ⟨record, sibling, around⟩ := around
      obtain ⟨sentinel, relinked⟩ := relinked
      obtain ⟨notSibling, notPath, -⟩ := nodup_surroundings_cons.mp distinct
      have away {a : Nat} (other : a ≠ frame.value.1) : Pointer.node a ≠ above (frame :: path) :=
        fun equal => other (Pointer.node.inj equal)
      refine ⟨?_, sibling.congr ?_, around.congr ?_ sentinel⟩
      · rw [relinked, record, Option.map_some, setChild_linked]
      · exact fun a member => same a (mem_surroundings_cons.mpr (.inr (.inl member)))
          (away fun equal => notSibling (equal ▸ member))
      · exact fun a member => same a (mem_surroundings_cons.mpr (.inr (.inr member)))
          (away fun equal => notPath (equal ▸ member))

/-- The sentinel of a dictionary is a black node without a right child. -/
theorem Around.sentinel (around : Around memory path hole) :
    ∃ sentinel, memory .nil = some sentinel ∧ sentinel.right = .nil ∧ sentinel.color = .black := by
  induction path generalizing hole with
  | nil =>
      obtain ⟨sentinel, found, -, right, color⟩ := around
      exact ⟨sentinel, found, right, color⟩
  | cons frame path ih => exact ih around.2.2

/-- A pointer to a subtree leads to a node of the subtree's colour. -/
theorem Around.record (around : Around memory path hole) (stored : Stored memory parent tree) :
    ∃ node, memory (address tree) = some node ∧ node.color = tree.color := by
  cases tree with
  | nil =>
      obtain ⟨sentinel, found, -, color⟩ := around.sentinel
      exact ⟨sentinel, found, color⟩
  | node color left entry right => exact ⟨_, stored.1, rfl⟩

/-- The pointer to the parent of a subtree leads to a node. -/
theorem Around.valid (around : Around memory path hole) : (memory (above path)).isSome := by
  cases path with
  | nil =>
      obtain ⟨sentinel, found, -⟩ := around
      simp [above, found]
  | cons frame path => simp [above, around.1]

/-- The side of its parent that a subtree is on; the root is on the left of the
sentinel. -/
def holeSide : List (Frame (Nat × κ)) → Side
  | [] => .left
  | frame :: _ => frame.side

/-- The parent of a node links to it on one side only. -/
theorem Around.linked {a : Nat} (around : Around memory path (.node a))
    (apart : a ∉ surroundings path) :
    ∃ node, memory (above path) = some node ∧ node.child (holeSide path) = .node a ∧
      node.child (holeSide path).other ≠ .node a := by
  cases path with
  | nil =>
      obtain ⟨sentinel, found, left, right, -⟩ := around
      exact ⟨sentinel, found, left, by simp [holeSide, Dnode.child, right]⟩
  | cons frame path =>
      refine ⟨_, around.1, child_linked _ _ _ _ _ _, ?_⟩
      rw [holeSide, child_other_linked]
      exact (node_ne_address fun member => apart
        (mem_surroundings_cons.mpr (.inr (.inl member)))).symm

end M2Handler.Adt

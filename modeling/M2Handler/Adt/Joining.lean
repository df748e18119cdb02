import M2Handler.Adt.Loading
import M2Handler.RedBlack.Levels

/-!
# Subtrees that wait for their right half

A finished subtree stands in the memory under a parent that is not yet known.  What
waits for its right half is in the array `tree` of `dict_load_end` at its level, and
takes a finished subtree of that level as its right half.
-/

namespace M2Handler.Adt

open M2Handler.Machine M2Handler.RedBlack M2Handler.RedBlack.Tree

variable {κ : Type}

/-! ## Joining a node and its right half -/

def Waits (memory : Pointer → Option (Dnode κ)) (waiting : Waiting (Nat × κ)) : Prop :=
  (∃ right parent, memory (.node waiting.value.1) =
    some (Dnode.linked .left (address waiting.left) right parent (rowColor (waiting.level + 1))
      waiting.value.2)) ∧
    Stored memory (.node waiting.value.1) waiting.left

/-- A finished tree in a memory, whose parent is not yet known. -/
def Finished (memory : Pointer → Option (Dnode κ)) (tree : RedBlack.Tree (Nat × κ)) : Prop :=
  ∃ parent, Stored memory parent tree

/-- The root of a finished tree is a node, or the sentinel. -/
theorem Finished.valid {memory : Pointer → Option (Dnode κ)} {tree : RedBlack.Tree (Nat × κ)}
    (finished : Finished memory tree) (sentinel : (memory .nil).isSome) :
    (memory (address tree)).isSome := by
  obtain ⟨parent, stored⟩ := finished
  cases tree with
  | nil => exact sentinel
  | node color near entry far => rw [address, stored.1]; rfl

theorem Waits.congr {memory memory' : Pointer → Option (Dnode κ)} {waiting : Waiting (Nat × κ)}
    (waits : Waits memory waiting)
    (own : memory' (.node waiting.value.1) = memory (.node waiting.value.1))
    (same : ∀ a ∈ addresses waiting.left, memory' (.node a) = memory (.node a)) :
    Waits memory' waiting := by
  obtain ⟨⟨right, parent, record⟩, stored⟩ := waits
  exact ⟨⟨right, parent, own.trans record⟩, stored.congr same⟩

/-- The root of a tree is one of its nodes. -/
theorem mem_of_address {tree : RedBlack.Tree (Nat × κ)} {a : Nat} (root : address tree = .node a) :
    a ∈ addresses tree := by
  cases tree with
  | nil => cases root
  | node color left entry right =>
      rw [mem_addresses_node, ← Pointer.node.inj root]
      exact .inl rfl

theorem addresses_over (waiting : Waiting (Nat × κ)) (tree : RedBlack.Tree (Nat × κ)) :
    addresses (waiting.over tree) =
      addresses waiting.left ++ waiting.value.1 :: addresses tree := by
  simp [Waiting.over, addresses]

/-- The node takes the finished tree as its right half. -/
theorem over_run {dict : Dict κ} {waiting : Waiting (Nat × κ)} {tree : RedBlack.Tree (Nat × κ)}
    (waits : Waits dict.memory waiting) (finished : Finished dict.memory tree)
    (distinct : (addresses (waiting.over tree)).Nodup) (sentinel : (dict.memory .nil).isSome) :
    ∃ dict', (∀ β (next : DictM κ β),
        (store (.node waiting.value.1) (Dnode.setChild .right (address tree)) >>= fun _ =>
          store (address tree) (Dnode.setParent (.node waiting.value.1)) >>= fun _ => next) dict =
        next dict') ∧
      Finished dict'.memory (waiting.over tree) ∧
      WritesOnly (addresses (waiting.over tree)) dict dict' := by
  obtain ⟨level, left, a, key⟩ := waiting
  obtain ⟨⟨right, parent, record⟩, storedLeft⟩ := waits
  have validTree := finished.valid sentinel
  obtain ⟨parent', storedTree⟩ := finished
  have apart := distinct
  change (addresses (join .left _ left (a, key) tree)).Nodup at apart
  obtain ⟨notLeft, notTree, -, treeNodup, disjoint⟩ := nodup_addresses_join.mp apart
  have away : Pointer.node a ≠ address tree := node_ne_address notTree
  have validNode : (dict.memory (.node a)).isSome := by rw [record]; rfl
  let linked := dict.change (.node a) (Dnode.setChild .right (address tree))
  let dict' := linked.change (address tree) (Dnode.setParent (.node a))
  have run : ∀ β (next : DictM κ β),
      (store (.node a) (Dnode.setChild .right (address tree)) >>= fun _ =>
        store (address tree) (Dnode.setParent (.node a)) >>= fun _ => next) dict = next dict' := by
    intro β next
    rw [store_bind validNode, store_bind (by simpa using validTree)]
  have atNode : dict'.memory (.node a) = some (Dnode.linked .left (address left) (address tree)
      parent (rowColor (level + 1)) key) := by
    rw [change_memory, if_neg away, change_memory, if_pos rfl, record]
    rfl
  have kept {b : Nat} (other : b ≠ a) (off : Pointer.node b ≠ address tree) :
      dict'.memory (.node b) = dict.memory (.node b) := by
    rw [change_memory, if_neg off, change_memory, if_neg fun same => other (Pointer.node.inj same)]
  refine ⟨dict', run, ⟨parent, atNode, ?_, ?_⟩, ?_⟩
  · refine storedLeft.congr fun b member => kept ?_ ?_
    · rintro rfl
      exact notLeft member
    · exact node_ne_address (disjoint b member)
  · refine storedTree.adopt treeNodup (fun b member off => kept ?_ off) fun _ => ?_
    · rintro rfl
      exact notTree member
    · rw [change_memory, if_pos rfl, change_memory, if_neg (Ne.symm away)]
  · refine (writesOnly_change ?_ _).trans (writesOnly_change ?_ _) (List.Subset.refl _)
    · rintro b same
      rw [addresses_over]
      simp [Pointer.node.inj same.symm]
    · rintro b same
      rw [addresses_over]
      simp [mem_of_address same]

/-! ## The array of the waiting nodes -/

def treeAt (waiting : List (Waiting (Nat × κ))) (level : Nat) : Pointer :=
  match waiting.find? fun other => other.level = level with
  | some other => .node other.value.1
  | none => .null

def treeOf (waiting : List (Waiting (Nat × κ))) : List Pointer :=
  (List.range DICT_DEPTH_MAX).map (treeAt waiting)

theorem treeAt_cons_self (first : Waiting (Nat × κ)) (others : List (Waiting (Nat × κ))) :
    treeAt (first :: others) first.level = .node first.value.1 := by
  simp [treeAt]

theorem treeAt_cons_other {first : Waiting (Nat × κ)} {level : Nat} (other : first.level ≠ level)
    (others : List (Waiting (Nat × κ))) : treeAt (first :: others) level = treeAt others level := by
  simp [treeAt, other]

theorem treeAt_absent {waiting : List (Waiting (Nat × κ))} {level : Nat}
    (absent : ∀ other ∈ waiting, other.level ≠ level) : treeAt waiting level = .null := by
  have none_found : waiting.find? (fun other => other.level = level) = none := by
    simpa using absent
  rw [treeAt, none_found]

theorem length_treeOf (waiting : List (Waiting (Nat × κ))) :
    (treeOf waiting).length = DICT_DEPTH_MAX := by
  simp [treeOf]

theorem readTree_run {waiting : List (Waiting (Nat × κ))} {level : Nat}
    (low : level < DICT_DEPTH_MAX) (dict : Dict κ) :
    readTree (treeOf waiting) level dict = .ok (treeAt waiting level, dict) := by
  have entry : (treeOf waiting)[level]? = some (treeAt waiting level) := by
    simp [treeOf, low]
  rw [readTree, entry]

theorem writeTree_run {waiting : List (Waiting (Nat × κ))} {level : Nat}
    (low : level < DICT_DEPTH_MAX) (pointer : Pointer) (dict : Dict κ) :
    writeTree (treeOf waiting) level pointer dict =
      .ok ((treeOf waiting).set level pointer, dict) := by
  rw [writeTree, if_pos (by rwa [length_treeOf])]

theorem set_treeOf {waiting waiting' : List (Waiting (Nat × κ))} {level : Nat} {pointer : Pointer}
    (changed : treeAt waiting' level = pointer)
    (kept : ∀ other, other ≠ level → treeAt waiting' other = treeAt waiting other) :
    (treeOf waiting).set level pointer = treeOf waiting' := by
  apply List.ext_getElem
  · simp [treeOf]
  · intro i _ _
    rw [List.getElem_set]
    by_cases same : level = i
    · subst same
      simp [treeOf, changed]
    · rw [if_neg same]
      simp [treeOf, kept i (Ne.symm same)]

/-- The first of what waits is taken out of the array. -/
theorem set_null_treeOf {first : Waiting (Nat × κ)} {others : List (Waiting (Nat × κ))}
    (above : ∀ other ∈ others, first.level < other.level) :
    (treeOf (first :: others)).set first.level .null = treeOf others :=
  set_treeOf (treeAt_absent fun other member => Nat.ne_of_gt (above other member))
    fun _ different => (treeAt_cons_other (Ne.symm different) others).symm

theorem set_node_treeOf (first : Waiting (Nat × κ)) (others : List (Waiting (Nat × κ))) :
    (treeOf others).set first.level (.node first.value.1) = treeOf (first :: others) :=
  set_treeOf (treeAt_cons_self first others) fun _ different =>
    treeAt_cons_other (Ne.symm different) others

theorem addresses_absorb (level : Nat) (tree : RedBlack.Tree (Nat × κ))
    (waiting : List (Waiting (Nat × κ))) :
    addresses tree ⊆ addresses (absorb level tree waiting).2.1 := by
  induction waiting generalizing level tree with
  | nil => exact List.Subset.refl _
  | cons first others ih =>
      rw [absorb]
      by_cases same : first.level = level
      · rw [if_pos same]
        refine List.Subset.trans ?_ (ih (level + 1) (first.over tree))
        rw [addresses_over]
        exact fun a member => List.mem_append_right _ (List.mem_cons_of_mem _ member)
      · rw [if_neg same]
        exact List.Subset.refl _

/-- The nodes that wait are apart from the rest. -/
theorem Waits.outside {memory memory' : Pointer → Option (Dnode κ)}
    {waiting : List (Waiting (Nat × κ))} {rest : List Nat} {other : Waiting (Nat × κ)}
    (waits : Waits memory other) (member : other ∈ waiting)
    (distinct : ((Build.spine waiting).map Prod.fst ++ rest).Nodup)
    (same : ∀ a, a ∉ rest → memory' (.node a) = memory (.node a)) : Waits memory' other := by
  have inside : ∀ a, a = other.value.1 ∨ a ∈ addresses other.left →
      a ∈ (Build.spine waiting).map Prod.fst := by
    clear distinct
    induction waiting with
    | nil => cases member
    | cons first others ih =>
        intro a own
        rw [Build.spine, List.map_append, List.map_append]
        rcases List.mem_cons.mp member with rfl | member
        · refine List.mem_append_right _ (List.mem_append.mpr ?_)
          rcases own with rfl | own
          · exact .inr List.mem_cons_self
          · exact .inl own
        · exact List.mem_append_left _ (ih member a own)
  obtain ⟨-, -, apart⟩ := List.nodup_append.mp distinct
  have away {a : Nat} (own : a = other.value.1 ∨ a ∈ addresses other.left) : a ∉ rest :=
    fun inRest => apart a (inside a own) a inRest rfl
  exact waits.congr (same _ (away (.inl rfl))) fun a inLeft => same a (away (.inr inLeft))

/-- The finished tree is joined with all that waits for it. -/
theorem completeLoop_run {dict : Dict κ} {waiting : List (Waiting (Nat × κ))}
    {tree : RedBlack.Tree (Nat × κ)} {level fuel : Nat}
    (ascending : waiting.Pairwise fun first second => first.level < second.level)
    (above : ∀ other ∈ waiting, level ≤ other.level)
    (waits : ∀ other ∈ waiting, Waits dict.memory other) (finished : Finished dict.memory tree)
    (distinct : ((Build.spine waiting).map Prod.fst ++ addresses tree).Nodup)
    (sentinel : (dict.memory .nil).isSome)
    (low : (absorb level tree waiting).1 < DICT_DEPTH_MAX)
    (enough : DICT_DEPTH_MAX < fuel + level) :
    ∃ dict', completeLoop fuel (treeOf waiting) (address tree) level dict =
        .ok ((treeOf (absorb level tree waiting).2.2, address (absorb level tree waiting).2.1,
          (absorb level tree waiting).1), dict') ∧
      Finished dict'.memory (absorb level tree waiting).2.1 ∧
      (∀ other ∈ (absorb level tree waiting).2.2, Waits dict'.memory other) ∧
      WritesOnly (addresses (absorb level tree waiting).2.1) dict dict' := by
  induction waiting generalizing dict tree level fuel with
  | nil =>
      rw [absorb] at low
      obtain ⟨fuel, rfl⟩ : ∃ less, fuel = less + 1 := ⟨fuel - 1, by omega⟩
      refine ⟨dict, ?_, finished, waits, WritesOnly.refl _ _⟩
      rw [completeLoop, action_bind (readTree_run low dict)]
      rfl
  | cons first others ih =>
      obtain ⟨lower, ascending'⟩ := List.pairwise_cons.mp ascending
      have inRange : level < DICT_DEPTH_MAX := lt_of_le_of_lt (mem_absorb level tree _).1 low
      obtain ⟨fuel, rfl⟩ : ∃ less, fuel = less + 1 := ⟨fuel - 1, by omega⟩
      rw [completeLoop, action_bind (readTree_run inRange dict)]
      rw [absorb] at low ⊢
      by_cases same : first.level = level
      · subst same
        rw [if_pos rfl] at low ⊢
        have joined : (Build.spine (first :: others)).map Prod.fst ++ addresses tree =
            (Build.spine others).map Prod.fst ++ addresses (first.over tree) := by
          rw [addresses_over, Build.spine]
          simp [addresses]
        rw [joined] at distinct
        obtain ⟨-, distinctOver, -⟩ := List.nodup_append.mp distinct
        obtain ⟨between, step, finished', writes⟩ :=
          over_run (waits first List.mem_cons_self) finished distinctOver sentinel
        have waits' : ∀ other ∈ others, Waits between.memory other := fun other member =>
          (waits other (List.mem_cons_of_mem _ member)).outside member distinct writes.others
        have enough' : DICT_DEPTH_MAX < fuel + (first.level + 1) := by omega
        obtain ⟨dict', run, finishedAll, waitsAll, writesAll⟩ :=
          ih ascending' (fun other member => lower other member) waits' finished' distinct
            (by rw [writes.sentinel]; exact sentinel) low enough'
        refine ⟨dict', ?_, finishedAll, waitsAll,
          writes.trans writesAll (addresses_absorb _ _ _)⟩
        rw [treeAt_cons_self, if_pos (by simp), step, action_bind (writeTree_run inRange _ _),
          set_null_treeOf lower]
        exact run
      · rw [if_neg same] at low ⊢
        have absent : ∀ other ∈ first :: others, other.level ≠ level := by
          intro other member
          rcases List.mem_cons.mp member with rfl | inOthers
          · exact same
          · have higher := lower other inOthers
            have first_above := above first List.mem_cons_self
            omega
        refine ⟨dict, ?_, finished, waits, WritesOnly.refl _ _⟩
        rw [treeAt_absent absent, if_neg (by simp)]
        rfl

end M2Handler.Adt

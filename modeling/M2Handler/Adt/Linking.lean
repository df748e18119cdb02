import M2Handler.Adt.Joining

/-!
# Linking the loaded nodes

`dict_load_end` takes the chained nodes one after the other, and after each of them
its variables and the memory stand for what is built of their entries.
-/

namespace M2Handler.Adt

open M2Handler.Machine M2Handler.RedBlack M2Handler.RedBlack.Tree

variable {κ : Type}

/-! ## One node after the other -/

/-- The variables and the memory stand for a build. -/
structure Stands (dict : Dict κ) (locals : LoadEnd) (build : Build (Nat × κ)) : Prop where
  tree : locals.tree = treeOf build.waiting
  complete : locals.complete = (build.complete.map address).getD .null
  baselevel : locals.baselevel = build.base
  level : locals.level = build.level
  finished : ∀ tree, build.complete = some tree → Finished dict.memory tree
  waits : ∀ other ∈ build.waiting, Waits dict.memory other

def placed (build : Build (Nat × κ)) : List Nat := build.inorder.map Prod.fst

/-- The places on the bottom row are counted down to 0 once, and there are fewer nodes than it
takes to count to 0 again. -/
def Counts (count : UInt64) (build : Build (Nat × κ)) (remaining : Nat) : Prop :=
  build.base = 0 ∧ count.toNat = build.bottom ∨ build.base = 1 ∧ remaining < count.toNat

/-- A step ends where the variables and the memory stand for the build. It leaves the count of
places as it is and writes to no node outside of the build. -/
def Reaches (step : DictM κ LoadEnd) (dict : Dict κ) (locals : LoadEnd)
    (build : Build (Nat × κ)) : Prop :=
  ∃ locals' dict', step dict = .ok (locals', dict') ∧ Stands dict' locals' build ∧
    locals'.botrowcount = locals.botrowcount ∧ WritesOnly (placed build) dict dict'

theorem Stands.complete_eq_null {dict : Dict κ} {locals : LoadEnd} {build : Build (Nat × κ)}
    (stands : Stands dict locals build) : locals.complete = .null ↔ build.complete = none := by
  rw [stands.complete]
  cases build.complete with
  | none => simp
  | some tree => simp

/-- A node without a right half is finished. -/
theorem Waits.close {dict : Dict κ} {waiting : Waiting (Nat × κ)}
    (waits : Waits dict.memory waiting) (distinct : waiting.value.1 ∉ addresses waiting.left) :
    Finished (dict.change (.node waiting.value.1) (Dnode.setChild .right .nil)).memory
      (waiting.over .nil) := by
  obtain ⟨⟨right, parent, record⟩, stored⟩ := waits
  refine ⟨parent, ?_, stored.congr fun a member => ?_, trivial⟩
  · rw [change_memory, if_pos rfl, record]
    rfl
  · rw [change_memory, if_neg]
    intro same
    exact distinct (Pointer.node.inj same ▸ member)

theorem placed_carry (build : Build (Nat × κ)) (level : Nat) (tree : RedBlack.Tree (Nat × κ))
    (waiting : List (Waiting (Nat × κ))) :
    placed (build.carry level tree waiting) =
      (Build.spine waiting).map Prod.fst ++ addresses tree := by
  rw [placed, Build.inorder_carry, List.map_append]
  rfl

theorem placed_raise {build : Build (Nat × κ)} (incomplete : build.complete = none) :
    placed build.raise = placed build :=
  congrArg (List.map Prod.fst) (Build.inorder_raise incomplete)

theorem addresses_absorb_subset_placed (build : Build (Nat × κ)) (level : Nat)
    (tree : RedBlack.Tree (Nat × κ)) (waiting : List (Waiting (Nat × κ))) :
    addresses (absorb level tree waiting).2.1 ⊆ placed (build.carry level tree waiting) := by
  intro a member
  rw [placed, Build.inorder, List.map_append]
  exact List.mem_append_right _ member

/-- The loop finishes what a build carries up. -/
theorem carry_run {dict : Dict κ} {build : Build (Nat × κ)} {waiting : List (Waiting (Nat × κ))}
    {tree : RedBlack.Tree (Nat × κ)} {level : Nat}
    (ascending : waiting.Pairwise fun first second => first.level < second.level)
    (above : ∀ other ∈ waiting, level ≤ other.level)
    (waits : ∀ other ∈ waiting, Waits dict.memory other) (finished : Finished dict.memory tree)
    (distinct : (placed (build.carry level tree waiting)).Nodup)
    (sentinel : (dict.memory .nil).isSome)
    (within : (build.carry level tree waiting).Within (DICT_DEPTH_MAX - 1)) :
    ∃ tree' complete level' dict', completeLoop (DICT_DEPTH_MAX + 1) (treeOf waiting) (address tree)
        level dict = .ok ((tree', complete, level'), dict') ∧
      (∀ count, Stands dict' ⟨tree', complete, count, build.base, level'⟩
        (build.carry level tree waiting)) ∧
      WritesOnly (placed (build.carry level tree waiting)) dict dict' := by
  have low : (absorb level tree waiting).1 < DICT_DEPTH_MAX :=
    Nat.lt_succ_of_le (within.complete (by simp))
  rw [placed_carry] at distinct
  obtain ⟨dict', run, finished', waits', writes⟩ := completeLoop_run ascending above waits finished
    distinct sentinel low (Nat.lt_of_lt_of_le (Nat.lt_succ_self _) (Nat.le_add_right _ _))
  refine ⟨_, _, _, dict', run, fun count => ?_, ?_⟩
  · refine ⟨rfl, rfl, rfl, rfl, ?_, waits'⟩
    intro other complete
    cases complete
    exact finished'
  · exact writes.mono (addresses_absorb_subset_placed build level tree waiting)

/-- What waits on no level is not in the array. -/
theorem treeAt_below {waiting : List (Waiting (Nat × κ))} {level : Nat}
    (above : ∀ other ∈ waiting, level < other.level) : treeAt waiting level = .null :=
  treeAt_absent fun other member => Nat.ne_of_gt (above other member)

theorem raise_of_lowest {build : Build (Nat × κ)} {first : Waiting (Nat × κ)}
    {others : List (Waiting (Nat × κ))} (waiting : build.waiting = first :: others)
    (lowest : first.level = 0) :
    build.raise = { build with base := 1 }.carry 1 (first.over .nil) others := by
  rw [Build.raise, waiting]
  exact if_pos lowest

theorem raise_of_above {build : Build (Nat × κ)}
    (above : ∀ other ∈ build.waiting, 0 < other.level) :
    build.raise = { build with base := 1, level := 1 } := by
  rw [Build.raise]
  cases waiting : build.waiting with
  | nil => rfl
  | cons first others =>
      have higher := above first (by rw [waiting]; exact List.mem_cons_self)
      exact if_neg (Nat.ne_of_gt higher)

/-- If not all that waits is above a level, the first waits on it. -/
theorem exists_lowest {waiting : List (Waiting (Nat × κ))} {level : Nat}
    (ascending : waiting.Pairwise fun first second => first.level < second.level)
    (least : ∀ other ∈ waiting, level ≤ other.level)
    (lowest : ¬ ∀ other ∈ waiting, level < other.level) :
    ∃ first others, waiting = first :: others ∧ first.level = level ∧
      ∀ other ∈ others, first.level < other.level := by
  cases waiting with
  | nil => exact absurd (fun _ member => absurd member List.not_mem_nil) lowest
  | cons first others =>
      obtain ⟨lower, -⟩ := List.pairwise_cons.mp ascending
      have atLeast := least first List.mem_cons_self
      refine ⟨first, others, rfl, ?_, lower⟩
      by_contra different
      refine lowest fun other member => ?_
      rcases List.mem_cons.mp member with rfl | member
      · exact Nat.lt_of_le_of_ne atLeast (Ne.symm different)
      · exact Nat.lt_of_le_of_lt atLeast (lower other member)

/-- What waits on the bottom row is finished with an empty right half, and carried up. -/
theorem closeLowest_run {dict : Dict κ} {locals : LoadEnd} {build : Build (Nat × κ)}
    {first : Waiting (Nat × κ)} {others : List (Waiting (Nat × κ))}
    (stands : Stands dict locals build) (stacked : build.Stacked)
    (waiting : build.waiting = first :: others) (lowest : first.level = 0)
    (distinct : (placed build.raise).Nodup) (sentinel : (dict.memory .nil).isSome)
    (within : build.raise.Within (DICT_DEPTH_MAX - 1)) :
    Reaches (do
      store (.node first.value.1) (Dnode.setChild .right .nil)
      let (tree, complete, level) ←
        completeLoop (DICT_DEPTH_MAX + 1) (treeOf others) (.node first.value.1) 1
      pure { locals with tree, complete, level, baselevel := 1 }) dict locals build.raise := by
  have ascending := stacked.ascending
  have waitsAll := stands.waits
  rw [waiting] at ascending waitsAll
  obtain ⟨lower, ascending'⟩ := List.pairwise_cons.mp ascending
  have waitsFirst := waitsAll first List.mem_cons_self
  rw [raise_of_lowest waiting lowest] at distinct within ⊢
  have split := distinct
  rw [placed_carry] at split
  have apart : first.value.1 ∉ addresses first.left := by
    obtain ⟨-, distinctOver, -⟩ := List.nodup_append.mp split
    rw [addresses_over] at distinctOver
    intro inside
    exact (List.nodup_append.mp distinctOver).2.2 _ inside _ List.mem_cons_self rfl
  let closed := dict.change (.node first.value.1) (Dnode.setChild .right .nil)
  have written : WritesOnly (addresses (first.over .nil)) dict closed := by
    refine writesOnly_change (fun a node => ?_) _
    rw [addresses_over]
    simp [Pointer.node.inj node]
  have waits' : ∀ other ∈ others, Waits closed.memory other := fun other member =>
    (waitsAll other (List.mem_cons_of_mem _ member)).outside member split written.others
  obtain ⟨tree', complete, level', dict', run, stands', writes⟩ :=
    carry_run ascending' (fun other member => Nat.zero_lt_of_lt (lower other member)) waits'
      (waitsFirst.close apart) distinct (by rw [written.sentinel]; exact sentinel) within
  have validFirst : (dict.memory (.node first.value.1)).isSome := by
    obtain ⟨⟨_, _, record⟩, -⟩ := waitsFirst
    rw [record]
    rfl
  have start : address (first.over .nil) = .node first.value.1 := rfl
  rw [start] at run
  refine ⟨_, dict', ?_, stands' locals.botrowcount, rfl, written.trans writes ?_⟩
  · rw [store_bind validFirst, action_bind run]
    rfl
  · rw [placed_carry]
    exact List.subset_append_right _ _

/-- The step to the row above the bottom row. -/
theorem leaveBottomRow_run (ndebug : Bool) {dict : Dict κ} {locals : LoadEnd}
    {build : Build (Nat × κ)} (stands : Stands dict locals build) (stacked : build.Stacked)
    (incomplete : build.complete = none) (grounded : build.base = 0)
    (distinct : (placed build).Nodup) (sentinel : (dict.memory .nil).isSome)
    (within : build.raise.Within (DICT_DEPTH_MAX - 1)) :
    Reaches (leaveBottomRow ndebug locals) dict locals build.raise := by
  have inRange : 0 < DICT_DEPTH_MAX := by decide
  have lowest_base : locals.baselevel = 0 := stands.baselevel.trans grounded
  have lowest_level : locals.level = 0 :=
    stands.level.trans ((stacked.leveled incomplete).trans grounded)
  rw [Reaches, leaveBottomRow, assert_bind ndebug (decide_eq_true lowest_base),
    assert_bind ndebug (decide_eq_true lowest_level), stands.tree,
    action_bind (readTree_run inRange dict)]
  by_cases above : ∀ other ∈ build.waiting, 0 < other.level
  · rw [raise_of_above above, treeAt_below above, if_neg (by simp)]
    refine ⟨_, dict, rfl, ⟨rfl, ?_, rfl, rfl, stands.finished, stands.waits⟩, rfl,
      WritesOnly.refl _ _⟩
    rw [incomplete]
    rfl
  · obtain ⟨first, others, waiting, lowest, lower⟩ :=
      exists_lowest stacked.ascending (fun _ _ => Nat.zero_le _) above
    have firstAt := treeAt_cons_self first others
    have without := set_null_treeOf lower
    rw [lowest] at firstAt without
    rw [waiting, firstAt, if_pos (by simp), action_bind (writeTree_run inRange _ _), without]
    exact closeLowest_run stands stacked waiting lowest
      ((placed_raise incomplete).symm ▸ distinct) sentinel within

/-- The tree at the end is that of all that waits. -/
theorem joinLoop_run {dict : Dict κ} {waiting : List (Waiting (Nat × κ))}
    {tree : RedBlack.Tree (Nat × κ)} {start count : Nat}
    (ascending : waiting.Pairwise fun first second => first.level < second.level)
    (range : ∀ other ∈ waiting, start ≤ other.level ∧ other.level < start + count)
    (waits : ∀ other ∈ waiting, Waits dict.memory other) (finished : Finished dict.memory tree)
    (distinct : ((Build.spine waiting).map Prod.fst ++ addresses tree).Nodup)
    (sentinel : (dict.memory .nil).isSome) :
    ∃ dict', joinLoop ((List.range' start count).map (treeAt waiting)) (address tree) dict =
        .ok (address (waiting.foldl (fun tree waiting => waiting.over tree) tree), dict') ∧
      Finished dict'.memory (waiting.foldl (fun tree waiting => waiting.over tree) tree) ∧
      (dict'.memory .nil).isSome ∧ dict'.next = dict.next ∧ dict'.nodecount = dict.nodecount := by
  induction count generalizing start waiting tree dict with
  | zero =>
      have empty : waiting = [] := by
        cases waiting with
        | nil => rfl
        | cons first others =>
            have impossible := range first List.mem_cons_self
            omega
      subst empty
      exact ⟨dict, rfl, finished, sentinel, rfl, rfl⟩
  | succ count ih =>
      have later {others : List (Waiting (Nat × κ))} (member : ∀ other ∈ others, other ∈ waiting)
          (above : ∀ other ∈ others, start < other.level) :
          ∀ other ∈ others, start + 1 ≤ other.level ∧ other.level < start + 1 + count := by
        intro other inside
        have bounds := range other (member other inside)
        have higher := above other inside
        omega
      rw [List.range'_succ, List.map_cons, joinLoop]
      by_cases above : ∀ other ∈ waiting, start < other.level
      · rw [treeAt_below above, if_neg (by simp)]
        exact ih ascending (later (fun _ member => member) above) waits finished distinct sentinel
      · obtain ⟨first, others, rfl, rfl, lower⟩ :=
          exists_lowest ascending (fun other member => (range other member).1) above
        have joined : (Build.spine (first :: others)).map Prod.fst ++ addresses tree =
            (Build.spine others).map Prod.fst ++ addresses (first.over tree) := by
          rw [addresses_over, Build.spine]
          simp [addresses]
        rw [joined] at distinct
        obtain ⟨-, distinctOver, -⟩ := List.nodup_append.mp distinct
        obtain ⟨between, step, finished', writes⟩ :=
          over_run (waits first List.mem_cons_self) finished distinctOver sentinel
        have waits' : ∀ other ∈ others, Waits between.memory other := fun other member =>
          (waits other (List.mem_cons_of_mem _ member)).outside member distinct writes.others
        have rest : (List.range' (first.level + 1) count).map (treeAt (first :: others)) =
            (List.range' (first.level + 1) count).map (treeAt others) := by
          refine List.map_congr_left fun level member => treeAt_cons_other ?_ others
          have bounds := List.mem_range'_1.mp member
          omega
        obtain ⟨dict', run, finishedAll, sentinel', next, nodecount⟩ :=
          ih (List.pairwise_cons.mp ascending).2
            (later (fun _ member => List.mem_cons_of_mem _ member) lower) waits' finished' distinct
            (by rw [writes.sentinel]; exact sentinel)
        refine ⟨dict', ?_, finishedAll, sentinel', next.trans writes.next,
          nodecount.trans writes.nodecount⟩
        rw [treeAt_cons_self, if_pos (by simp), step, rest]
        exact run

/-- `if (complete == NULL && botrowcount-- == 0)`. -/
theorem takePlace_run (ndebug : Bool) {dict : Dict κ} {locals : LoadEnd}
    {build : Build (Nat × κ)} {remaining : Nat} (stands : Stands dict locals build)
    (stacked : build.Stacked) (distinct : (placed build).Nodup)
    (sentinel : (dict.memory .nil).isSome)
    (within : build.claim.Within (DICT_DEPTH_MAX - 1))
    (counts : Counts locals.botrowcount build (remaining + 1)) (few : remaining < 2 ^ 64 - 1) :
    ∃ locals' dict', takePlace ndebug locals dict = .ok (locals', dict') ∧
      Stands dict' locals' build.claim ∧ Counts locals'.botrowcount build.claim remaining ∧
      WritesOnly (placed build) dict dict' := by
  cases complete : build.complete with
  | some tree =>
      have incomplete : locals.complete ≠ .null := by
        rw [ne_eq, stands.complete_eq_null, complete]
        exact Option.some_ne_none tree
      rw [takePlace, if_neg incomplete, Build.claim_complete complete]
      exact ⟨locals, dict, rfl, stands,
        counts.imp_right fun raised => ⟨raised.1, Nat.lt_of_succ_lt raised.2⟩, WritesOnly.refl _ _⟩
  | none =>
      rw [Build.claim_incomplete complete] at within ⊢
      rw [takePlace, if_pos (stands.complete_eq_null.mpr complete)]
      have zero_iff : locals.botrowcount = 0 ↔ locals.botrowcount.toNat = 0 :=
        ⟨fun zero => by rw [zero]; rfl, fun zero => UInt64.toNat_inj.mp zero⟩
      by_cases zero : locals.botrowcount = 0
      · have full : build.base = 0 ∧ build.bottom = 0 := by
          rcases counts with ⟨grounded, left⟩ | ⟨-, more⟩
          · exact ⟨grounded, left.symm.trans (zero_iff.mp zero)⟩
          · exact absurd (zero_iff.mp zero) (Nat.ne_of_gt (Nat.zero_lt_of_lt more))
        rw [if_pos full] at within ⊢
        rw [if_pos zero]
        have stands' : Stands dict { locals with botrowcount := locals.botrowcount - 1 } build :=
          ⟨stands.tree, stands.complete, stands.baselevel, stands.level, stands.finished,
            stands.waits⟩
        obtain ⟨locals', dict', run, stood, count, writes⟩ :=
          leaveBottomRow_run ndebug stands' stacked complete full.1 distinct sentinel within
        rw [placed_raise complete] at writes
        refine ⟨locals', dict', run, stood, .inr ⟨Build.raise_base build, ?_⟩, writes⟩
        rw [count]
        change remaining < (locals.botrowcount - 1).toNat
        rw [zero]
        exact few
      · have positive : 0 < locals.botrowcount.toNat := Nat.pos_of_ne_zero fun none_left =>
          zero (zero_iff.mpr none_left)
        have less : (locals.botrowcount - 1).toNat = locals.botrowcount.toNat - 1 :=
          UInt64.toNat_sub_of_le _ _ (UInt64.le_iff_toNat_le.mpr positive)
        have places : ¬ (build.base = 0 ∧ build.bottom = 0) := by
          rintro ⟨grounded, full⟩
          rcases counts with ⟨-, left⟩ | ⟨raised, -⟩
          · omega
          · omega
        rw [if_neg places, if_neg zero]
        refine ⟨_, dict, rfl, ⟨stands.tree, stands.complete, stands.baselevel, stands.level,
          stands.finished, stands.waits⟩, ?_, WritesOnly.refl _ _⟩
        rw [Counts, less]
        rcases counts with ⟨grounded, left⟩ | ⟨raised, more⟩
        · exact .inl ⟨grounded, by rw [left]⟩
        · exact .inr ⟨raised, by omega⟩

/-- Without a complete tree the next node is a leaf. -/
theorem placeLeaf_run (ndebug : Bool) {dict : Dict κ} {locals : LoadEnd}
    {build : Build (Nat × κ)} {entry : Nat × κ} {node : Dnode κ} (stands : Stands dict locals build)
    (stacked : build.Stacked) (complete : build.complete = none)
    (distinct : (placed (build.place entry)).Nodup) (sentinel : (dict.memory .nil).isSome)
    (within : (build.place entry).Within (DICT_DEPTH_MAX - 1))
    (found : dict.memory (.node entry.1) = some node) (key : node.key = some entry.2) :
    Reaches (placeNode ndebug (.node entry.1) locals) dict locals (build.place entry) := by
  have validNode : (dict.memory (.node entry.1)).isSome := by rw [found]; rfl
  obtain ⟨left, right, parent, color, _⟩ := node
  subst key
  rw [Build.place_incomplete complete] at distinct within ⊢
  let leaf : RedBlack.Tree (Nat × κ) := .node (rowColor build.base) .nil entry .nil
  let made := ((dict.change (.node entry.1) (Dnode.setChild .left .nil)).change (.node entry.1)
    (Dnode.setChild .right .nil)).change (.node entry.1)
    (Dnode.setColor (dnodeColor (build.base % 2)))
  have leveled : locals.level = build.base := stands.level.trans (stacked.leveled complete)
  have listed : ∀ a, Pointer.node entry.1 = .node a → a ∈ addresses leaf :=
    fun a same => Pointer.node.inj same ▸ List.mem_cons_self
  have written : WritesOnly (addresses leaf) dict made :=
    ((writesOnly_change listed _).trans (writesOnly_change listed _)
      (List.Subset.refl _)).trans (writesOnly_change listed _) (List.Subset.refl _)
  have record : made.memory (.node entry.1) =
      some (Dnode.linked .left .nil .nil parent (rowColor build.base) entry.2) := by
    simp only [made, change_memory, if_pos, found, Option.map_some]
    rfl
  have finished : Finished made.memory leaf := ⟨parent, record, trivial, trivial⟩
  have split := distinct
  rw [placed_carry] at split
  have waits' : ∀ other ∈ build.waiting, Waits made.memory other := fun other member =>
    (stands.waits other member).outside member split written.others
  obtain ⟨tree', complete', level', dict', run, stands', writes⟩ :=
    carry_run stacked.ascending stacked.grounded waits' finished distinct
      (by rw [written.sentinel]; exact sentinel) within
  have start : address leaf = .node entry.1 := rfl
  rw [start] at run
  refine ⟨_, dict', ?_, stands' locals.botrowcount, rfl, written.trans writes ?_⟩
  · rw [placeNode, if_pos (stands.complete_eq_null.mpr complete), store_bind validNode,
      store_bind (by simpa using validNode), store_bind (by simpa using validNode),
      assert_bind ndebug (decide_eq_true (leveled.trans stands.baselevel.symm)), leveled,
      stands.tree, action_bind run, stands.baselevel]
    rfl
  · rw [placed_carry]
    exact List.subset_append_right _ _

/-- The node with the finished tree as its left half waits for its right half. -/
theorem Finished.wait {dict : Dict κ} {tree : RedBlack.Tree (Nat × κ)} {entry : Nat × κ}
    {level : Nat} {node : Dnode κ} (finished : Finished dict.memory tree)
    (distinct : (addresses tree ++ [entry.1]).Nodup)
    (found : dict.memory (.node entry.1) = some node) (key : node.key = some entry.2) :
    Waits (((dict.change (.node entry.1) (Dnode.setChild .left (address tree))).change
      (.node entry.1) (Dnode.setColor (dnodeColor ((level + 1) % 2)))).change
      (address tree) (Dnode.setParent (.node entry.1))).memory ⟨level, tree, entry⟩ := by
  obtain ⟨left, right, parent, color, _⟩ := node
  subst key
  obtain ⟨grandparent, stored⟩ := finished
  obtain ⟨treeNodup, -, apart⟩ := List.nodup_append.mp distinct
  have notTree : entry.1 ∉ addresses tree := fun inside =>
    apart _ inside _ List.mem_cons_self rfl
  have away : Pointer.node entry.1 ≠ address tree := node_ne_address notTree
  refine ⟨⟨right, parent, ?_⟩, stored.adopt treeNodup (fun b member off => ?_) fun _ => ?_⟩
  · simp only [change_memory, if_neg away, if_pos, found, Option.map_some]
    rfl
  · have different : Pointer.node b ≠ .node entry.1 := by
      intro same
      exact notTree (Pointer.node.inj same ▸ member)
    simp only [change_memory, if_neg off, if_neg different]
  · simp only [change_memory, if_pos, if_neg (Ne.symm away)]

/-- The next node is the parent of the complete tree. -/
theorem placeParent_run (ndebug : Bool) {dict : Dict κ} {locals : LoadEnd}
    {build : Build (Nat × κ)} {entry : Nat × κ} {node : Dnode κ} {tree : RedBlack.Tree (Nat × κ)}
    (stands : Stands dict locals build) (complete : build.complete = some tree)
    (distinct : (placed (build.place entry)).Nodup) (sentinel : (dict.memory .nil).isSome)
    (within : (build.place entry).Within (DICT_DEPTH_MAX - 1))
    (found : dict.memory (.node entry.1) = some node) (key : node.key = some entry.2) :
    Reaches (placeNode ndebug (.node entry.1) locals) dict locals (build.place entry) := by
  have validNode : (dict.memory (.node entry.1)).isSome := by rw [found]; rfl
  have whole : placed (build.place entry) =
      (Build.spine build.waiting).map Prod.fst ++ (addresses tree ++ [entry.1]) := by
    rw [Build.place_complete complete]
    simp [placed, Build.inorder, Build.spine, addresses]
  have split := distinct
  rw [whole] at split
  obtain ⟨-, distinctOwn, -⟩ := List.nodup_append.mp split
  rw [Reaches, whole]
  rw [Build.place_complete complete] at within ⊢
  let parentOf : Waiting (Nat × κ) := ⟨build.level, tree, entry⟩
  have pointer : locals.complete = address tree := by
    rw [stands.complete, complete]
    rfl
  have incomplete : locals.complete ≠ .null := by
    rw [pointer]
    exact address_ne_null tree
  have inRange : build.level < DICT_DEPTH_MAX :=
    Nat.lt_succ_of_le (within.waiting parentOf List.mem_cons_self)
  have finished := stands.finished tree complete
  have validTree := finished.valid sentinel
  let dict' := ((dict.change (.node entry.1) (Dnode.setChild .left (address tree))).change
    (.node entry.1) (Dnode.setColor (dnodeColor ((build.level + 1) % 2)))).change
    (address tree) (Dnode.setParent (.node entry.1))
  have listed : ∀ a, Pointer.node entry.1 = .node a → a ∈ addresses tree ++ [entry.1] :=
    fun a same => List.mem_append_right _ (Pointer.node.inj same ▸ List.mem_cons_self)
  have written : WritesOnly (addresses tree ++ [entry.1]) dict dict' :=
    ((writesOnly_change listed _).trans (writesOnly_change listed _) (List.Subset.refl _)).trans
      (writesOnly_change (fun a same => List.mem_append_left _ (mem_of_address same)) _)
      (List.Subset.refl _)
  refine ⟨⟨treeOf (parentOf :: build.waiting), .null, locals.botrowcount, locals.baselevel,
    locals.baselevel⟩, dict', ?_, ⟨rfl, rfl, stands.baselevel, stands.baselevel, ?_, ?_⟩, rfl,
    written.mono (List.subset_append_right _ _)⟩
  · rw [placeNode, if_neg incomplete, pointer, stands.level, stands.tree, store_bind validNode,
      store_bind (by simpa using validNode), store_bind (by simpa using validTree),
      action_bind (writeTree_run inRange _ _)]
    rw [show (treeOf build.waiting).set build.level (.node entry.1) =
      treeOf (parentOf :: build.waiting) from set_node_treeOf parentOf build.waiting]
    rfl
  · intro other finished
    cases finished
  · intro other member
    rcases List.mem_cons.mp member with rfl | member
    · exact finished.wait distinctOwn found key
    · exact (stands.waits other member).outside member split written.others

/-- The next node is a leaf, or the parent of the complete tree. -/
theorem placeNode_run (ndebug : Bool) {dict : Dict κ} {locals : LoadEnd}
    {build : Build (Nat × κ)} {entry : Nat × κ} {node : Dnode κ} (stands : Stands dict locals build)
    (stacked : build.Stacked) (distinct : (placed (build.place entry)).Nodup)
    (sentinel : (dict.memory .nil).isSome)
    (within : (build.place entry).Within (DICT_DEPTH_MAX - 1))
    (found : dict.memory (.node entry.1) = some node) (key : node.key = some entry.2) :
    Reaches (placeNode ndebug (.node entry.1) locals) dict locals (build.place entry) := by
  cases complete : build.complete with
  | none =>
      exact placeLeaf_run ndebug stands stacked complete distinct sentinel within found key
  | some tree =>
      exact placeParent_run ndebug stands complete distinct sentinel within found key

/-! ## The loop over the chain -/

/-- A node does not change what is left of the bottom row. -/
theorem Counts.place {count : UInt64} {build : Build (Nat × κ)} {remaining : Nat}
    (counts : Counts count build remaining) (entry : Nat × κ) :
    Counts count (build.place entry) remaining := by
  cases complete : build.complete with
  | none => rwa [Build.place_incomplete complete]
  | some tree => rwa [Build.place_complete complete]

theorem placed_push (build : Build (Nat × κ)) (entry : Nat × κ) :
    placed (build.push entry) = placed build ++ [entry.1] := by
  rw [placed, Build.push, Build.inorder_place, Build.inorder_claim, List.map_append]
  rfl

/-- The loop over the loaded nodes. -/
theorem loadEndLoop_run (ndebug : Bool) {dict : Dict κ} {locals : LoadEnd}
    {build : Build (Nat × κ)} {loadnil : Nat} {curr : Pointer} {remaining : List (Nat × κ)}
    {fuel : Nat} (stands : Stands dict locals build) (stacked : build.Stacked)
    (segment : Segment dict.memory (.node loadnil) curr remaining)
    (distinct : (placed build ++ remaining.map Prod.fst).Nodup)
    (apart : loadnil ∉ remaining.map Prod.fst) (sentinel : (dict.memory .nil).isSome)
    (within : (remaining.foldl Build.push build).Within (DICT_DEPTH_MAX - 1))
    (counts : Counts locals.botrowcount build remaining.length) (few : remaining.length < 2 ^ 64)
    (enough : remaining.length < fuel) :
    ∃ locals' dict',
      loadEndLoop ndebug (.node loadnil) fuel curr locals dict = .ok (locals', dict') ∧
      Stands dict' locals' (remaining.foldl Build.push build) ∧
      (remaining.foldl Build.push build).Stacked ∧ (dict'.memory .nil).isSome ∧
      dict'.next = dict.next ∧ dict'.nodecount = dict.nodecount := by
  induction remaining generalizing dict locals build curr fuel with
  | nil =>
      obtain ⟨fuel, rfl⟩ : ∃ less, fuel = less + 1 := ⟨fuel - 1, by omega⟩
      have atEnd : curr = .node loadnil := segment
      rw [loadEndLoop, if_pos atEnd]
      exact ⟨locals, dict, rfl, stands, stacked, sentinel, rfl, rfl⟩
  | cons entry remaining ih =>
      rw [List.length_cons] at enough few counts
      obtain ⟨fuel, rfl⟩ : ∃ less, fuel = less + 1 := ⟨fuel - 1, by omega⟩
      obtain ⟨rfl, node, found, key, rest⟩ := segment
      rw [List.map_cons] at distinct apart
      have later : ((placed build ++ [entry.1]) ++ remaining.map Prod.fst).Nodup := by
        rw [List.append_assoc]
        exact distinct
      obtain ⟨placedNodup, -, between⟩ := List.nodup_append.mp distinct
      obtain ⟨pushNodup, -, beyond⟩ := List.nodup_append.mp later
      have current : Pointer.node entry.1 ≠ .node loadnil := fun same =>
        apart (Pointer.node.inj same ▸ List.mem_cons_self)
      have pushed : (build.push entry).Within (DICT_DEPTH_MAX - 1) :=
        Build.Within.of_foldl remaining within
      obtain ⟨claimed, dict₁, takeRun, stands₁, counts₁, writes₁⟩ := takePlace_run ndebug stands
        stacked placedNodup sentinel pushed.of_place counts (by omega)
      have found₁ : dict₁.memory (.node entry.1) = some node := by
        rw [writes₁.others entry.1 fun inside =>
          between _ inside _ List.mem_cons_self rfl, found]
      rw [← placed_push] at pushNodup later beyond
      obtain ⟨locals₂, dict₂, placeRun, stands₂, count, writes₂⟩ := placeNode_run ndebug stands₁
        stacked.claim pushNodup (by rw [writes₁.sentinel]; exact sentinel) pushed found₁ key
      have kept : ∀ other ∈ remaining,
          dict₂.memory (.node other.1) = dict.memory (.node other.1) := by
        intro other member
        have inRest : other.1 ∈ remaining.map Prod.fst := List.mem_map_of_mem member
        have outside : other.1 ∉ placed (build.push entry) := fun inside =>
          beyond _ inside _ inRest rfl
        have before : other.1 ∉ placed build := fun inside =>
          outside (by rw [placed_push]; exact List.mem_append_left _ inside)
        exact (writes₂.others _ outside).trans (writes₁.others _ before)
      have counts₂ : Counts locals₂.botrowcount (build.push entry) remaining.length := by
        rw [count]
        exact counts₁.place entry
      have few' : remaining.length < 2 ^ 64 := by omega
      have enough' : remaining.length < fuel := by omega
      obtain ⟨locals', dict', run, stood, stacked', sentinel', next, nodecount⟩ :=
        ih stands₂ (stacked.claim.place entry) (rest.congr kept) later
          (fun inside => apart (List.mem_cons_of_mem _ inside))
          (by rw [writes₂.sentinel, writes₁.sentinel]; exact sentinel) within counts₂ few' enough'
      refine ⟨locals', dict', ?_, stood, stacked', sentinel',
        next.trans (writes₂.next.trans writes₁.next),
        nodecount.trans (writes₂.nodecount.trans writes₁.nodecount)⟩
      rw [loadEndLoop, if_neg current, load_bind found, action_bind takeRun, action_bind placeRun]
      exact run

/-! ## The start and the end -/

/-- The shifts end at the number of nodes in the full rows. -/
theorem fullcountLoop_run (dict : Dict κ) {nodecount fullcount : UInt64} {rows fuel : Nat}
    (full : fullcount.toNat = 2 ^ rows - 1) (small : nodecount.toNat < 2 ^ rows)
    (enough : rows < fuel) :
    ∃ result, fullcountLoop nodecount fuel fullcount dict = .ok (result, dict) ∧
      result.toNat = 2 ^ (nodecount.toNat.size - 1) - 1 := by
  induction rows generalizing fullcount fuel with
  | zero =>
      obtain ⟨fuel, rfl⟩ : ∃ less, fuel = less + 1 := ⟨fuel - 1, by omega⟩
      have zero : fullcount = 0 := UInt64.toNat_inj.mp full
      have empty : nodecount.toNat = 0 := by omega
      refine ⟨fullcount, ?_, ?_⟩
      · rw [fullcountLoop, if_neg fun condition => condition.2 zero]
        rfl
      · rw [full, empty]
        rfl
  | succ rows ih =>
      obtain ⟨fuel, rfl⟩ : ∃ less, fuel = less + 1 := ⟨fuel - 1, by omega⟩
      have positive := Nat.two_pow_pos rows
      rw [Nat.pow_succ] at full small
      have goesOn : fullcount ≥ nodecount ∧ fullcount ≠ 0 := by
        refine ⟨UInt64.le_iff_toNat_le.mpr (by omega), fun zero => ?_⟩
        rw [zero] at full
        change 0 = _ at full
        omega
      have half : (fullcount >>> 1).toNat = 2 ^ rows - 1 := by
        rw [UInt64.toNat_shiftRight, full]
        change (2 ^ rows * 2 - 1) >>> 1 = _
        rw [Nat.shiftRight_eq_div_pow]
        omega
      rw [fullcountLoop, if_pos goesOn]
      by_cases more : nodecount.toNat < 2 ^ rows
      · exact ih half more (by omega)
      · obtain ⟨fuel, rfl⟩ : ∃ less, fuel = less + 1 := ⟨fuel - 1, by omega⟩
        refine ⟨fullcount >>> 1, ?_, ?_⟩
        · rw [fullcountLoop, if_neg]
          · rfl
          · rintro ⟨atLeast, -⟩
            have order := UInt64.le_iff_toNat_le.mp atLeast
            omega
        · have low : rows < nodecount.toNat.size := Nat.lt_size.mpr (Nat.le_of_not_lt more)
          have high : nodecount.toNat.size ≤ rows + 1 := Nat.size_le.mpr (by rwa [Nat.pow_succ])
          have exact_size : nodecount.toNat.size - 1 = rows := by omega
          rw [half, exact_size]

/-- A finished tree becomes that of the dictionary, with a black root. -/
theorem setRoot_run {dict : Dict κ} {tree : RedBlack.Tree (Nat × κ)}
    (finished : Finished dict.memory tree) (distinct : (addresses tree).Nodup)
    (allocated : ∀ a ∈ addresses tree, a < dict.next) (sentinel : (dict.memory .nil).isSome) :
    ∃ dict', setRoot (address tree) dict = .ok ((), dict') ∧ Holds dict' (tree.paint .black) ∧
      (dict'.memory (address tree)).map Dnode.parent = some .nil ∧
      dict'.nodecount = dict.nodecount := by
  obtain ⟨nilnode, foundNil⟩ := Option.isSome_iff_exists.mp sentinel
  have validTree := finished.valid sentinel
  obtain ⟨parent, stored⟩ := finished
  let dict' := ((((dict.change .nil (Dnode.setColor .black)).change .nil
    (Dnode.setChild .right .nil)).change (address tree) (Dnode.setParent .nil)).change
    (address tree) (Dnode.setColor .black)).change .nil (Dnode.setChild .left (address tree))
  have run : setRoot (address tree) dict = .ok ((), dict') := by
    rw [setRoot, store_bind sentinel, store_bind (by simpa using sentinel),
      store_bind (by simpa using validTree), store_bind (by simpa using validTree),
      store_run (by simpa using sentinel)]
  have same : addresses (tree.paint .black) = addresses tree := by
    rw [addresses, inorder_paint, addresses]
  refine ⟨dict', run, ⟨?_, ?_, same ▸ distinct, same ▸ allocated⟩, ?_, rfl⟩
  · cases tree with
    | nil => trivial
    | node color near entry far =>
        obtain ⟨record, storedNear, storedFar⟩ := stored
        change (addresses (join .left color near entry far)).Nodup at distinct
        obtain ⟨notNear, notFar, -⟩ := nodup_addresses_join.mp distinct
        have kept {a : Nat} (other : a ≠ entry.1) :
            dict'.memory (.node a) = dict.memory (.node a) := by
          simp [dict', change_memory, address, other]
        refine ⟨?_, storedNear.congr fun a member => kept ?_,
          storedFar.congr fun a member => kept ?_⟩
        · simp [dict', change_memory, address, record]
        · rintro rfl
          exact notNear member
        · rintro rfl
          exact notFar member
  · rw [address_paint]
    cases tree with
    | nil =>
        refine ⟨((((nilnode.setColor .black).setChild .right .nil).setParent .nil).setColor
          .black).setChild .left .nil, ?_, rfl, rfl, rfl⟩
        simp [dict', change_memory, address, foundNil]
    | node color near entry far =>
        refine ⟨((nilnode.setColor .black).setChild .right .nil).setChild .left (.node entry.1), ?_,
          rfl, rfl, rfl⟩
        simp [dict', change_memory, address, foundNil]
  · cases tree with
    | nil =>
        simp [dict', change_memory, address, foundNil]
        rfl
    | node color near entry far =>
        simp [dict', change_memory, address, stored.1]

/-- The trees that are left are joined, and the last becomes that of the dictionary. -/
theorem finish_run {dict : Dict κ} {locals : LoadEnd} {build : Build (Nat × κ)}
    (stands : Stands dict locals build) (stacked : build.Stacked)
    (within : build.Within (DICT_DEPTH_MAX - 1)) (distinct : (placed build).Nodup)
    (allocated : ∀ a ∈ placed build, a < dict.next) (sentinel : (dict.memory .nil).isSome) :
    ∃ dict', (joinLoop locals.tree (if locals.complete = .null then .nil else locals.complete) >>=
        fun complete => setRoot complete) dict = .ok ((), dict') ∧
      Holds dict' build.finish ∧ dict'.nodecount = dict.nodecount ∧
      (dict'.memory (address build.finish)).map Dnode.parent = some .nil := by
  let complete : RedBlack.Tree (Nat × κ) := build.complete.getD .nil
  let root := build.waiting.foldl (fun tree waiting => waiting.over tree) complete
  have pointer : (if locals.complete = .null then Pointer.nil else locals.complete) =
      address complete := by
    rw [stands.complete]
    cases found : build.complete with
    | none => simp [complete, found, address]
    | some tree => simp [complete, found]
  have finished : Finished dict.memory complete := by
    cases found : build.complete with
    | none =>
        have empty : complete = .nil := by simp [complete, found]
        rw [empty]
        exact ⟨.nil, trivial⟩
    | some tree =>
        have same : complete = tree := by simp [complete, found]
        rw [same]
        exact stands.finished tree found
  have split : ((Build.spine build.waiting).map Prod.fst ++ addresses complete).Nodup := by
    rw [placed, Build.inorder, List.map_append] at distinct
    exact distinct
  have range : ∀ other ∈ build.waiting, 0 ≤ other.level ∧ other.level < 0 + DICT_DEPTH_MAX := by
    intro other member
    have low := within.waiting other member
    have positive : 0 < DICT_DEPTH_MAX := by decide
    omega
  have array : locals.tree = (List.range' 0 DICT_DEPTH_MAX).map (treeAt build.waiting) := by
    rw [stands.tree, treeOf, List.range_eq_range']
  obtain ⟨joined, run, finished', sentinel', next, nodecount⟩ :=
    joinLoop_run stacked.ascending range stands.waits finished split sentinel
  have rootAddresses : addresses root = placed build := by
    have painted : (root.paint .black).inorder = build.inorder := Build.inorder_finish build
    rw [addresses, placed, ← painted, inorder_paint]
  obtain ⟨dict', run', holds, parent, nodecount'⟩ := setRoot_run finished'
    (rootAddresses ▸ distinct) (by
      intro a member
      rw [next]
      exact allocated a (rootAddresses ▸ member)) sentinel'
  refine ⟨dict', ?_, holds, nodecount'.trans nodecount, ?_⟩
  · rw [pointer, array, action_bind run, run']
  · rw [Build.finish, address_paint]
    exact parent

/-- The chained nodes become the tree that is built of them. -/
theorem linkNodes_run (ndebug : Bool) {dict : Dict κ} {loadnil : Nat} {entries : List (Nat × κ)}
    (loaded : Loaded dict loadnil entries) (distinct : (loadnil :: entries.map Prod.fst).Nodup)
    (allocated : ∀ a ∈ entries.map Prod.fst, a < dict.next) (sentinel : (dict.memory .nil).isSome)
    (size : entries.length < 2 ^ 64) :
    ∃ dict', linkNodes ndebug (.node loadnil) dict = .ok ((), dict') ∧
      Holds dict' (buildTree entries) ∧ dictCount dict' = UInt64.ofNat entries.length ∧
      (dict'.memory (address (buildTree entries))).map Dnode.parent = some .nil := by
  obtain ⟨apart, entriesNodup⟩ := List.nodup_cons.mp distinct
  obtain ⟨node, found, segment⟩ := loaded.chained
  have count : dict.nodecount.toNat = entries.length := by
    rw [loaded.nodecount]
    exact UInt64.toNat_ofNat_of_lt' size
  have sizeBound : entries.length.size ≤ DICT_DEPTH_MAX := Nat.size_le.mpr size
  have highest : DICTCOUNT_T_MAX.toNat = 2 ^ DICT_DEPTH_MAX - 1 := rfl
  have small : dict.nodecount.toNat < 2 ^ DICT_DEPTH_MAX := by rw [count]; exact size
  obtain ⟨fullcount, shifts, full⟩ :=
    fullcountLoop_run dict highest small (Nat.lt_succ_self _)
  rw [count] at full
  let build : Build (Nat × κ) := .start (bottomRow entries.length)
  let locals : LoadEnd :=
    { tree := List.replicate DICT_DEPTH_MAX .null
      complete := .null
      botrowcount := dict.nodecount - fullcount
      baselevel := 0
      level := 0 }
  have botrow : locals.botrowcount.toNat = bottomRow entries.length := by
    have within : fullcount ≤ dict.nodecount := by
      rw [UInt64.le_iff_toNat_le, full, count]
      exact fullRows_le entries.length
    change (dict.nodecount - fullcount).toNat = _
    rw [UInt64.toNat_sub_of_le _ _ within, full, count]
    rfl
  have stands : Stands dict locals build := by
    refine ⟨rfl, rfl, rfl, rfl, fun tree complete => ?_, fun _ member =>
      absurd member List.not_mem_nil⟩
    cases complete
  have whole : (placed build ++ entries.map Prod.fst).Nodup := entriesNodup
  have within : (entries.foldl Build.push build).Within (DICT_DEPTH_MAX - 1) :=
    (within_start (List.append_nil entries).symm).mono (by omega)
  have enough : entries.length < dict.next + 1 := by
    have fewer := length_le_of_allocated entriesNodup allocated
    rw [List.length_map] at fewer
    exact Nat.lt_succ_of_le fewer
  obtain ⟨locals', linked, run, stands', stacked, sentinel', next, nodecount⟩ :=
    loadEndLoop_run ndebug stands (Build.stacked_start _) segment whole apart sentinel within
      (.inl ⟨rfl, botrow⟩) size enough
  have placedAll : placed (entries.foldl Build.push build) = entries.map Prod.fst :=
    congrArg (List.map Prod.fst) (Build.inorder_foldl_push build entries)
  obtain ⟨dict', run', holds, nodecount', parent⟩ := finish_run stands' stacked within
    (by rw [placedAll]; exact entriesNodup) (by rw [placedAll, next]; exact allocated) sentinel'
  refine ⟨dict', ?_, holds, ?_, parent⟩
  · rw [linkNodes, get_bind, action_bind shifts, load_bind found, steps_bind, action_bind run]
    exact run'
  · rw [dictCount, nodecount', nodecount, loaded.nodecount]

end M2Handler.Adt

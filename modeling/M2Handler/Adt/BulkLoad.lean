import M2Handler.Adt.Linking

/-!
# A whole load

A load of nodes in any order of their keys makes the tree that has them in that
order.  Whether that is a dictionary is left to the assertions, and most of it to
the last of them.
-/

namespace M2Handler.Adt

open M2Handler.Machine M2Handler.RedBlack M2Handler.RedBlack.Tree

variable {κ : Type}

section Load

variable (compare : κ → κ → Int) {dict : Dict κ} {loadnil : Nat} {entries : List (Nat × κ)}
  (empty : Holds dict .nil) (count : dictCount dict = 0)
  (own : (dict.memory (.node loadnil)).isSome)
  (nodes : ∀ a ∈ entries.map Prod.fst, a < dict.next ∧ (dict.memory (.node a)).isSome)
  (distinct : (loadnil :: entries.map Prod.fst).Nodup) (size : entries.length < 2 ^ 64)

include nodes distinct size

include count own in
/-- The load starts with no node chained. -/
theorem begin_run (ndebug : Bool) :
    ∃ begun, dictLoadBegin ndebug (.node loadnil) dict = .ok ((), begun) ∧
      Loading begun loadnil [] entries ∧ begun.next = dict.next ∧
      (AllFree dict entries → AllFree begun entries) ∧
      (begun.memory .nil).isSome = (dict.memory .nil).isSome := by
  obtain ⟨begun, run, loaded, writes⟩ := dictLoadBegin_run ndebug count own
  have same {a : Nat} (member : a ∈ entries.map Prod.fst) :
      begun.memory (.node a) = dict.memory (.node a) :=
    writes.others a fun isNil =>
      (List.nodup_cons.mp distinct).1 (List.mem_singleton.mp isNil ▸ member)
  refine ⟨begun, run, ⟨loaded, distinct, fun a member => ?_, size⟩, writes.next,
    fun free a member node found => ?_, writes.sentinel⟩
  · rw [same member]
    exact (nodes a member).2
  · rw [same member] at found
    exact free a member node found

include empty in
/-- The chained nodes are linked to the tree that is built of them. -/
theorem link_run (ndebug : Bool) {chained : Dict κ} (loaded : Loaded chained loadnil entries)
    (next : chained.next = dict.next)
    (valid : (chained.memory .nil).isSome = (dict.memory .nil).isSome) :
    ∃ linked answer dict', linkNodes ndebug (.node loadnil) chained = .ok ((), linked) ∧
      Holds linked (buildTree entries) ∧ dictVerify compare linked = .ok (answer, dict') ∧
      Holds dict' (buildTree entries) ∧ (answer = 0 ∨ answer = 1) ∧
      (answer = 1 ↔ Ascending compare entries) := by
  obtain ⟨sentinel, foundNil, -⟩ := empty.rooted
  have sentinelKept : (chained.memory .nil).isSome := by
    rw [valid, foundNil]
    rfl
  have allocated : ∀ a ∈ entries.map Prod.fst, a < chained.next := by
    intro a member
    rw [next]
    exact (nodes a member).1
  obtain ⟨linked, run, holds, counted, parent⟩ :=
    linkNodes_run ndebug loaded distinct allocated sentinelKept size
  have inorder_eq : (buildTree entries).inorder = entries := inorder_buildTree entries
  obtain ⟨answer, dict', verifyRun, holds', binary, verified⟩ :=
    dictVerify_run compare holds fun _ => by rw [inorder_eq]; exact size
  refine ⟨linked, answer, dict', run, holds, verifyRun, holds', binary,
    verified.trans ⟨fun check => inorder_eq ▸ check.ascending, fun ascending => ?_⟩⟩
  exact ⟨isRedBlack_buildTree entries, inorder_eq.symm ▸ ascending, inorder_eq.symm ▸ counted,
    parent⟩

end Load

/-- A load into an empty dictionary makes a red-black tree of the nodes in their order, as
shallow as any, and the check accepts it if the keys came in ascending order. -/
theorem load_verifies_iff (compare : κ → κ → Int) {dict : Dict κ} {loadnil : Nat}
    {entries : List (Nat × κ)} (empty : Holds dict .nil) (count : dictCount dict = 0)
    (own : (dict.memory (.node loadnil)).isSome)
    (nodes : ∀ a ∈ entries.map Prod.fst, a < dict.next ∧ (dict.memory (.node a)).isSome)
    (distinct : (loadnil :: entries.map Prod.fst).Nodup) (size : entries.length < 2 ^ 64) :
    ∃ loaded tree answer dict',
      loadEntries true compare (.node loadnil) entries dict = .ok ((), loaded) ∧
      Holds loaded tree ∧ tree.inorder = entries ∧ IsRedBlack tree ∧
      tree.depth = entries.length.size ∧ dictVerify compare loaded = .ok (answer, dict') ∧
      (answer = 0 ∨ answer = 1) ∧ (answer = 1 ↔ Ascending compare entries) := by
  obtain ⟨begun, beginRun, loading, begunNext, -, begunNil⟩ :=
    begin_run count own nodes distinct size true
  obtain ⟨chained, chainRun, loaded, next, valid⟩ := loadAll_run loading (.inl (rfl : true = true))
  obtain ⟨linked, answer, dict', linkRun, holds, verifyRun, -, binary, iff⟩ :=
    link_run compare empty nodes distinct size true loaded (next.trans begunNext)
      ((valid .nil).trans begunNil)
  refine ⟨linked, buildTree entries, answer, dict', ?_, holds, inorder_buildTree entries,
    isRedBlack_buildTree entries, depth_buildTree entries, verifyRun, binary, iff⟩
  rw [loadEntries, action_bind beginRun, action_bind chainRun, dictLoadEnd, action_bind linkRun]
  rfl

def allocNodes : Nat → DictM κ Unit
  | 0 => pure ()
  | count + 1 => do
      let _ ← allocDict
      allocNodes count

/-- An empty dictionary beside four nodes, the first of them for the sentinel of a load. -/
theorem exists_fourNodes :
    ∃ dict : Dict Int, allocNodes 4 dictInit = .ok ((), dict) ∧ Holds dict .nil ∧
      dictCount dict = 0 ∧ (dict.memory (.node 0)).isSome ∧
      (∀ a ∈ [1, 2, 3], a < dict.next ∧ dict.memory (.node a) = some Dnode.zeroed) := by
  refine ⟨_, rfl, ⟨trivial, ⟨_, rfl, rfl, rfl, rfl⟩, List.nodup_nil, fun _ member =>
    absurd member List.not_mem_nil⟩, rfl, rfl, fun a member => ?_⟩
  rcases (show a = 1 ∨ a = 2 ∨ a = 3 by simpa using member) with rfl | rfl | rfl
  · exact ⟨by decide, rfl⟩
  · exact ⟨by decide, rfl⟩
  · exact ⟨by decide, rfl⟩

theorem load_verifies_iff_three :
    ∃ (dict loaded dict' : Dict Int) (tree : RedBlack.Tree (Nat × Int)),
      allocNodes 4 dictInit = .ok ((), dict) ∧
      loadEntries true (· - ·) (.node 0) [(1, 10), (2, 20), (3, 30)] dict = .ok ((), loaded) ∧
      Holds loaded tree ∧ tree.inorder = [(1, 10), (2, 20), (3, 30)] ∧ tree.depth = 2 ∧
      dictVerify (· - ·) loaded = .ok (1, dict') := by
  obtain ⟨dict, alloc, empty, count, own, nodes⟩ := exists_fourNodes
  have valid : ∀ a ∈ ([(1, 10), (2, 20), (3, 30)] : List (Nat × Int)).map Prod.fst,
      a < dict.next ∧ (dict.memory (.node a)).isSome := fun a member =>
    ⟨(nodes a member).1, by rw [(nodes a member).2]; rfl⟩
  obtain ⟨loaded, tree, answer, dict', run, holds, inorder_eq, -, depth, verified, -, iff⟩ :=
    load_verifies_iff (· - ·) empty count own valid (by decide) (by decide)
  have ascending : Ascending (· - ·) [(1, (10 : Int)), (2, 20), (3, 30)] := by decide
  rw [iff.mpr ascending] at verified
  exact ⟨dict, loaded, dict', tree, alloc, run, holds, inorder_eq, depth, verified⟩

/-- With the assertions a load either makes such a tree or stops in one of them.
`dict_load_next` asserts only that a key comes after the first.  A chain that it let through
is always linked, and only the check at the end finds that the rest is out of order. -/
theorem load_asserts_iff (compare : κ → κ → Int) {dict : Dict κ} {loadnil : Nat}
    {entries : List (Nat × κ)} (empty : Holds dict .nil) (count : dictCount dict = 0)
    (own : (dict.memory (.node loadnil)).isSome)
    (nodes : ∀ a ∈ entries.map Prod.fst, a < dict.next ∧ (dict.memory (.node a)).isSome)
    (distinct : (loadnil :: entries.map Prod.fst).Nodup) (size : entries.length < 2 ^ 64)
    (free : AllFree dict entries) :
    ((∃ chained, (dictLoadBegin false (.node loadnil) >>= fun _ =>
          loadAll false compare (.node loadnil) entries) dict = .ok ((), chained)) ↔
        ∀ first ∈ entries.head?, ∀ entry ∈ entries.tail, compare first.2 entry.2 < 0) ∧
      (∀ chained, (dictLoadBegin false (.node loadnil) >>= fun _ =>
          loadAll false compare (.node loadnil) entries) dict = .ok ((), chained) →
        ∃ linked answer dict', linkNodes false (.node loadnil) chained = .ok ((), linked) ∧
          dictVerify compare linked = .ok (answer, dict') ∧
          (answer = 0 ∨ answer = 1) ∧ (answer = 0 ↔ ¬ Ascending compare entries) ∧
          dictLoadEnd false compare (.node loadnil) chained =
            assertThat (decide (answer ≠ 0)) dict') ∧
      ((∃ loaded tree, loadEntries false compare (.node loadnil) entries dict = .ok ((), loaded) ∧
          Holds loaded tree ∧ tree.inorder = entries ∧ IsRedBlack tree) ∨
        loadEntries false compare (.node loadnil) entries dict = .error .assertion) ∧
      ((∃ loaded, loadEntries false compare (.node loadnil) entries dict = .ok ((), loaded)) ↔
        (∀ first ∈ entries.head?, ∀ entry ∈ entries.tail, compare first.2 entry.2 < 0) ∧
          Ascending compare entries) := by
  obtain ⟨begun, beginRun, loading, begunNext, begunFree, begunNil⟩ :=
    begin_run count own nodes distinct size false
  rw [← admitted_nil_iff, loadEntries, action_bind beginRun, action_bind beginRun]
  by_cases admitted : Admitted compare [] entries
  swap
  · have stops := loadAll_stops loading (begunFree free) admitted
    rw [stops, fault_bind stops]
    simp [admitted]
  obtain ⟨chained, chainRun, loaded, next, valid⟩ :=
    loadAll_run loading (.inr (⟨admitted, begunFree free⟩ : _ ∧ _))
  obtain ⟨linked, answer, dict', linkRun, holds, verifyRun, holds', binary, iff⟩ :=
    link_run compare empty nodes distinct size false loaded (next.trans begunNext)
      ((valid .nil).trans begunNil)
  have ending : dictLoadEnd false compare (.node loadnil) chained =
      assertThat (decide (answer ≠ 0)) dict' := by
    rw [dictLoadEnd, action_bind linkRun, unlessNdebug, if_neg Bool.false_ne_true,
      action_bind verifyRun]
  have rejects : answer = 0 ↔ ¬ Ascending compare entries := by
    rw [← iff]
    rcases binary with rfl | rfl <;> decide
  have linking (other : Dict κ)
      (same : (.ok ((), chained) : Except Fault (Unit × Dict κ)) = .ok ((), other)) :
      ∃ linked answer dict', linkNodes false (.node loadnil) other = .ok ((), linked) ∧
        dictVerify compare linked = .ok (answer, dict') ∧
        (answer = 0 ∨ answer = 1) ∧ (answer = 0 ↔ ¬ Ascending compare entries) ∧
        dictLoadEnd false compare (.node loadnil) other =
          assertThat (decide (answer ≠ 0)) dict' := by
    cases same
    exact ⟨linked, answer, dict', linkRun, verifyRun, binary, rejects, ending⟩
  rw [chainRun, action_bind chainRun, ending, assertThat]
  refine ⟨⟨fun _ => admitted, fun _ => ⟨_, rfl⟩⟩, linking, ?_⟩
  by_cases ascending : Ascending compare entries
  · have accepted : answer ≠ 0 := by rw [iff.mpr ascending]; decide
    rw [if_pos (decide_eq_true accepted)]
    exact ⟨.inl ⟨dict', buildTree entries, rfl, holds', inorder_buildTree entries,
      isRedBlack_buildTree entries⟩, fun _ => ⟨admitted, ascending⟩, fun _ => ⟨_, rfl⟩⟩
  · have rejected : answer = 0 := rejects.mpr ascending
    rw [if_neg (by simp [rejected])]
    refine ⟨.inr rfl, fun returns => ?_, fun both => absurd both.2 ascending⟩
    obtain ⟨_, impossible⟩ := returns
    cases impossible

/-- The second key is above the third, which only the check at the end finds. -/
theorem load_asserts_iff_unordered :
    ∃ dict chained linked dict' : Dict Int, allocNodes 4 dictInit = .ok ((), dict) ∧
      (dictLoadBegin false (.node 0) >>= fun _ =>
        loadAll false (· - ·) (.node 0) [(1, 10), (2, 30), (3, 20)]) dict = .ok ((), chained) ∧
      linkNodes false (.node 0) chained = .ok ((), linked) ∧
      dictVerify (· - ·) linked = .ok (0, dict') ∧
      loadEntries false (· - ·) (.node 0) [(1, 10), (2, 30), (3, 20)] dict =
        .error .assertion := by
  obtain ⟨dict, alloc, empty, count, own, nodes⟩ := exists_fourNodes
  have valid : ∀ a ∈ ([(1, 10), (2, 30), (3, 20)] : List (Nat × Int)).map Prod.fst,
      a < dict.next ∧ (dict.memory (.node a)).isSome := fun a member =>
    ⟨(nodes a member).1, by rw [(nodes a member).2]; rfl⟩
  have free : AllFree dict [(1, 10), (2, 30), (3, 20)] := by
    intro a member node found
    rw [(nodes a member).2] at found
    cases found
    exact .inl rfl
  obtain ⟨chains, linking, outcome, loads⟩ :=
    load_asserts_iff (· - ·) empty count own valid (by decide) (by decide) free
  obtain ⟨chained, chained_run⟩ := chains.mpr (by decide)
  obtain ⟨linked, answer, dict', linked_run, verified, -, rejects, -⟩ :=
    linking chained chained_run
  rw [rejects.mpr (by decide)] at verified
  refine ⟨dict, chained, linked, dict', alloc, chained_run, linked_run, verified,
    outcome.resolve_left fun returns => ?_⟩
  obtain ⟨loaded, -, run, -⟩ := returns
  have ascending := (loads.mp ⟨loaded, run⟩).2
  exact absurd ascending (by decide)

end M2Handler.Adt

import M2Handler.Adt.Freeing
import M2Handler.Adt.Insertion
import M2Handler.Adt.Removal

/-!
# Which nodes there are

Only an allocation makes a node and only `free_dict` takes one away: everything else
that the dictionary functions do changes fields of nodes that are there.
-/

namespace M2Handler.Adt

open M2Handler.Machine M2Handler.RedBlack M2Handler.RedBlack.Tree

variable {κ β γ : Type}

/-- The action neither allocates nor frees a node. -/
def Keeps (action : DictM κ β) : Prop :=
  ∀ dict result dict', action dict = .ok (result, dict') →
    ∀ pointer, (dict'.memory pointer).isSome = (dict.memory pointer).isSome

/-! ## Single accesses -/

theorem keeps_pure (result : β) : Keeps (pure result : DictM κ β) := by
  intro dict _ _ run pointer
  cases run
  rfl

theorem Keeps.bind {action : DictM κ β} {next : β → DictM κ γ} (first : Keeps action)
    (rest : ∀ result, Keeps (next result)) : Keeps (action >>= next) := by
  intro dict final dict' run pointer
  obtain ⟨⟨result, between⟩, ran, runRest⟩ := Exec.bind_eq_ok.mp run
  exact (rest result between final dict' runRest pointer).trans
    (first dict result between ran pointer)

theorem keeps_load (pointer : Pointer) (field : Dnode κ → β) : Keeps (load pointer field) := by
  intro dict result dict' run other
  rw [load] at run
  cases found : dict.memory pointer with
  | none => rw [found] at run; cases run
  | some node => rw [found] at run; cases run; rfl

theorem keeps_store (pointer : Pointer) (update : Dnode κ → Dnode κ) :
    Keeps (store pointer update) := by
  intro dict result dict' run other
  rw [store] at run
  cases found : dict.memory pointer with
  | none => rw [found] at run; cases run
  | some node => rw [found] at run; cases run; exact isSome_change _ _ _ _

theorem keeps_diverge : Keeps (diverge : DictM κ β) := by
  intro dict result dict' run
  cases run

theorem keeps_steps : Keeps (steps : DictM κ Nat) := by
  intro dict result dict' run pointer
  cases run
  rfl

theorem keeps_count (update : UInt64 → UInt64) :
    Keeps (modify fun dict : Dict κ => { dict with nodecount := update dict.nodecount }) := by
  intro dict result dict' run pointer
  cases run
  rfl

theorem keeps_ite {condition : Prop} [Decidable condition] {action other : DictM κ β}
    (then_keeps : Keeps action) (else_keeps : Keeps other) :
    Keeps (if condition then action else other) := by
  split
  · exact then_keeps
  · exact else_keeps

theorem keeps_loadKey (pointer : Pointer) : Keeps (loadKey pointer : DictM κ κ) := by
  refine (keeps_load _ _).bind fun key dict result dict' run other => ?_
  cases key with
  | none => cases run
  | some key => cases run; rfl

theorem keeps_dictRoot : Keeps (dictRoot : DictM κ Pointer) := keeps_load _ _

/-! ## Insertion -/

theorem keeps_rotate (side : Side) (upper : Pointer) :
    Keeps (rotate side upper : DictM κ Unit) := by
  unfold rotate
  refine (keeps_load _ _).bind fun _ => (keeps_load _ _).bind fun _ => ?_
  refine (keeps_store _ _).bind fun _ => (keeps_store _ _).bind fun _ => ?_
  refine (keeps_load _ _).bind fun _ => (keeps_store _ _).bind fun _ => ?_
  refine (keeps_load _ _).bind fun _ => (keeps_store _ _).bind fun _ => ?_
  exact (keeps_store _ _).bind fun _ => keeps_store _ _

theorem keeps_descendLoop (compare : κ → κ → Int) (key : κ) (fuel : Nat)
    (position parent : Pointer) (result : Int) :
    Keeps (descendLoop compare key fuel position parent result) := by
  induction fuel generalizing position parent result with
  | zero => exact keeps_diverge
  | succ fuel ih =>
      unfold descendLoop
      refine keeps_ite (keeps_pure _) ((keeps_loadKey _).bind fun _ => ?_)
      exact (keeps_load _ _).bind fun _ => ih _ _ _

theorem keeps_insertRotations (side : Side) (node parent grandpa : Pointer) :
    Keeps (insertRotations side node parent grandpa : DictM κ Unit) := by
  have rest (pointer : Pointer) : Keeps (do
      store pointer (Dnode.setColor .black)
      store grandpa (Dnode.setColor .red)
      rotate side.other grandpa : DictM κ Unit) :=
    (keeps_store _ _).bind fun _ => (keeps_store _ _).bind fun _ => keeps_rotate _ _
  unfold insertRotations
  refine (keeps_load _ _).bind fun _ => keeps_ite ?_ ?_
  · exact (keeps_rotate _ _).bind fun _ => (keeps_pure _).bind rest
  · exact (keeps_pure _).bind rest

theorem keeps_insertLoop (fuel : Nat) (node parent : Pointer) :
    Keeps (insertLoop fuel node parent : DictM κ Unit) := by
  induction fuel generalizing node parent with
  | zero => exact keeps_diverge
  | succ fuel ih =>
      unfold insertLoop
      refine (keeps_load _ _).bind fun _ => keeps_ite ?_ (keeps_pure _)
      refine (keeps_load _ _).bind fun _ => (keeps_load _ _).bind fun _ => ?_
      refine (keeps_load _ _).bind fun _ => (keeps_load _ _).bind fun _ => keeps_ite ?_ ?_
      · refine (keeps_store _ _).bind fun _ => (keeps_store _ _).bind fun _ => ?_
        exact (keeps_store _ _).bind fun _ => (keeps_load _ _).bind fun _ => ih _ _
      · exact keeps_insertRotations _ _ _ _

theorem keeps_dictInsert (compare : κ → κ → Int) (node : Pointer) (key : κ) :
    Keeps (dictInsert compare node key) := by
  unfold dictInsert
  refine keeps_dictRoot.bind fun _ => keeps_steps.bind fun _ => (keeps_store _ _).bind fun _ => ?_
  refine (keeps_descendLoop _ _ _ _ _ _).bind fun _ => (keeps_store _ _).bind fun _ => ?_
  refine (keeps_store _ _).bind fun _ => (keeps_store _ _).bind fun _ => ?_
  refine (keeps_store _ _).bind fun _ => (keeps_count (· + 1)).bind fun _ => ?_
  refine (keeps_store _ _).bind fun _ => (keeps_insertLoop _ _ _).bind fun _ => ?_
  exact keeps_dictRoot.bind fun _ => keeps_store _ _

/-! ## Traversal -/

theorem keeps_lookupLoop (compare : κ → κ → Int) (key : κ) (fuel : Nat) (root : Pointer) :
    Keeps (lookupLoop compare key fuel root) := by
  induction fuel generalizing root with
  | zero => exact keeps_diverge
  | succ fuel ih =>
      unfold lookupLoop
      refine keeps_ite (keeps_pure _) ((keeps_loadKey _).bind fun _ => keeps_ite ?_ ?_)
      · exact (keeps_load _ _).bind fun _ => ih _
      · exact keeps_ite ((keeps_load _ _).bind fun _ => ih _) (keeps_pure _)

theorem keeps_dictLookup (compare : κ → κ → Int) (key : κ) : Keeps (dictLookup compare key) :=
  keeps_dictRoot.bind fun _ => keeps_steps.bind fun _ => keeps_lookupLoop _ _ _ _

theorem keeps_leftmostLoop (fuel : Nat) (curr : Pointer) :
    Keeps (leftmostLoop fuel curr : DictM κ Pointer) := by
  induction fuel generalizing curr with
  | zero => exact keeps_diverge
  | succ fuel ih =>
      exact (keeps_load _ _).bind fun _ => keeps_ite (keeps_pure _) (ih _)

theorem keeps_dictFirst : Keeps (dictFirst : DictM κ Pointer) :=
  keeps_dictRoot.bind fun _ => keeps_steps.bind fun _ =>
    keeps_ite (keeps_pure _) (keeps_leftmostLoop _ _)

theorem keeps_climbLoop (fuel : Nat) (curr parent : Pointer) :
    Keeps (climbLoop fuel curr parent : DictM κ Pointer) := by
  induction fuel generalizing curr parent with
  | zero => exact keeps_diverge
  | succ fuel ih =>
      unfold climbLoop
      refine keeps_ite (keeps_pure _) ((keeps_load _ _).bind fun _ => ?_)
      exact keeps_ite ((keeps_load _ _).bind fun _ => ih _ _) (keeps_pure _)

theorem keeps_dictNext (curr : Pointer) : Keeps (dictNext curr : DictM κ Pointer) := by
  unfold dictNext
  refine (keeps_load _ _).bind fun _ => keeps_steps.bind fun _ => keeps_ite ?_ ?_
  · exact keeps_leftmostLoop _ _
  · exact (keeps_load _ _).bind fun _ => (keeps_climbLoop _ _ _).bind fun _ => keeps_pure _

/-! ## Deletion -/

theorem keeps_relink (parent old new : Pointer) :
    Keeps (relink parent old new : DictM κ Unit) :=
  (keeps_load _ _).bind fun _ => keeps_store _ _

theorem keeps_spliceNode (target : Pointer) : Keeps (spliceNode target : DictM κ Pointer) := by
  have rest (child : Pointer) : Keeps (do
      let delparent ← load target Dnode.parent
      store child (Dnode.setParent delparent)
      relink delparent target child
      pure child : DictM κ Pointer) :=
    (keeps_load _ _).bind fun _ => (keeps_store _ _).bind fun _ =>
      (keeps_relink _ _ _).bind fun _ => keeps_pure _
  unfold spliceNode
  refine (keeps_load _ _).bind fun _ => keeps_ite ?_ ?_
  · exact (keeps_load _ _).bind rest
  · exact (keeps_load _ _).bind rest

theorem keeps_spliceSuccessor (target delparent : Pointer) :
    Keeps (spliceSuccessor target delparent : DictM κ Pointer) := by
  unfold spliceSuccessor
  refine (keeps_dictNext _).bind fun _ => (keeps_load _ _).bind fun _ => ?_
  refine (keeps_load _ _).bind fun _ => (keeps_load _ _).bind fun _ => ?_
  refine (keeps_store _ _).bind fun _ => (keeps_relink _ _ _).bind fun _ => ?_
  refine (keeps_store _ _).bind fun _ => (keeps_load _ _).bind fun _ => ?_
  refine (keeps_store _ _).bind fun _ => (keeps_load _ _).bind fun _ => ?_
  refine (keeps_store _ _).bind fun _ => (keeps_load _ _).bind fun _ => ?_
  refine (keeps_store _ _).bind fun _ => (keeps_load _ _).bind fun _ => ?_
  refine (keeps_store _ _).bind fun _ => (keeps_load _ _).bind fun _ => ?_
  refine (keeps_store _ _).bind fun _ => (keeps_store _ _).bind fun _ => ?_
  exact (keeps_relink _ _ _).bind fun _ => keeps_pure _

theorem keeps_deleteRotations (side : Side) (parent sister : Pointer) :
    Keeps (deleteRotations side parent sister : DictM κ Unit) := by
  have rest (sister : Pointer) : Keeps (do
      let parentColor ← load parent Dnode.color
      store sister (Dnode.setColor parentColor)
      let far ← load sister (Dnode.child side.other)
      store far (Dnode.setColor .black)
      store parent (Dnode.setColor .black)
      rotate side parent : DictM κ Unit) :=
    (keeps_load _ _).bind fun _ => (keeps_store _ _).bind fun _ => (keeps_load _ _).bind fun _ =>
      (keeps_store _ _).bind fun _ => (keeps_store _ _).bind fun _ => keeps_rotate _ _
  unfold deleteRotations
  refine (keeps_load _ _).bind fun _ => (keeps_load _ _).bind fun _ => keeps_ite ?_ ?_
  · refine (keeps_load _ _).bind fun _ => (keeps_store _ _).bind fun _ => ?_
    refine (keeps_store _ _).bind fun _ => (keeps_rotate _ _).bind fun _ => ?_
    exact (keeps_load _ _).bind rest
  · exact (keeps_pure _).bind rest

theorem keeps_adjustBeside (side : Side) (parent sister : Pointer) :
    Keeps (adjustBeside side parent sister : DictM κ Bool) := by
  unfold adjustBeside
  refine (keeps_load _ _).bind fun _ => (keeps_load _ _).bind fun _ => ?_
  refine (keeps_load _ _).bind fun _ => (keeps_load _ _).bind fun _ => keeps_ite ?_ ?_
  · exact (keeps_store _ _).bind fun _ => keeps_pure _
  · exact (keeps_deleteRotations _ _ _).bind fun _ => keeps_pure _

theorem keeps_adjustUnder (child parent : Pointer) :
    Keeps (adjustUnder child parent : DictM κ Bool) := by
  unfold adjustUnder
  refine (keeps_load _ _).bind fun _ => (keeps_load _ _).bind fun _ => ?_
  refine (keeps_load _ _).bind fun _ => keeps_ite ?_ ?_
  · refine (keeps_store _ _).bind fun _ => (keeps_store _ _).bind fun _ => ?_
    exact (keeps_rotate _ _).bind fun _ => (keeps_load _ _).bind (keeps_adjustBeside _ _)
  · exact (keeps_pure _).bind (keeps_adjustBeside _ _)

theorem keeps_deleteLoop (fuel : Nat) (child : Pointer) :
    Keeps (deleteLoop fuel child : DictM κ Pointer) := by
  induction fuel generalizing child with
  | zero => exact keeps_diverge
  | succ fuel ih =>
      unfold deleteLoop
      refine (keeps_load _ _).bind fun _ => keeps_ite ?_ (keeps_pure _)
      refine (keeps_load _ _).bind fun _ => (keeps_adjustUnder _ _).bind fun _ => ?_
      exact keeps_ite (ih _) (keeps_pure _)

theorem keeps_dictDelete (target : Pointer) : Keeps (dictDelete target : DictM κ Pointer) := by
  have repair (child : Pointer) : Keeps (do
      let root ← dictRoot
      store root (Dnode.setColor .red)
      let fuel ← steps
      let child ← deleteLoop fuel child
      store child (Dnode.setColor .black)
      let root ← dictRoot
      store root (Dnode.setColor .black)
      pure target : DictM κ Pointer) := by
    refine keeps_dictRoot.bind fun _ => (keeps_store _ _).bind fun _ => ?_
    refine keeps_steps.bind fun _ => (keeps_deleteLoop _ _).bind fun _ => ?_
    refine (keeps_store _ _).bind fun _ => keeps_dictRoot.bind fun _ => ?_
    exact (keeps_store _ _).bind fun _ => keeps_pure _
  have rest (child : Pointer) : Keeps (do
      store target Dnode.unlink
      modify fun dict => { dict with nodecount := dict.nodecount - 1 }
      let targetColor ← load target Dnode.color
      if targetColor = .black then
        let root ← dictRoot
        store root (Dnode.setColor .red)
        let fuel ← steps
        let child ← deleteLoop fuel child
        store child (Dnode.setColor .black)
        let root ← dictRoot
        store root (Dnode.setColor .black)
        pure target
      else pure target : DictM κ Pointer) := by
    refine (keeps_store _ _).bind fun _ => (keeps_count (· - 1)).bind fun _ => ?_
    exact (keeps_load _ _).bind fun _ => keeps_ite (repair child) (keeps_pure _)
  unfold dictDelete
  refine (keeps_load _ _).bind fun _ => (keeps_load _ _).bind fun _ => ?_
  refine (keeps_load _ _).bind fun _ => keeps_ite ?_ ?_
  · exact (keeps_spliceSuccessor _ _).bind rest
  · exact (keeps_spliceNode _).bind rest

/-! ## Owning a tree -/

/-- The nodes that there are, and no others, are those of the tree. -/
def Owns (dict : Dict κ) (tree : RedBlack.Tree (Nat × κ)) : Prop :=
  ∀ a, (dict.memory (.node a)).isSome ↔ a ∈ addresses tree

theorem owns_dictInit : Owns (dictInit : Dict κ) .nil := by
  intro a
  simp [dictInit]

section Owns

variable {dict dict' : Dict κ} {tree tree' : RedBlack.Tree (Nat × κ)}

/-- An action that keeps the nodes keeps their tree owned. -/
theorem Owns.keeps (owns : Owns dict tree) {action : DictM κ β} {result : β}
    (keeps : Keeps action) (run : action dict = .ok (result, dict')) : Owns dict' tree := by
  intro a
  rw [keeps dict result dict' run]
  exact owns a

/-- `dict_alloc_insert` makes one node. -/
theorem Owns.insert (owns : Owns dict tree) (compare : κ → κ → Int) {key : κ} {result : Int}
    (run : dictAllocInsert compare key dict = .ok (result, dict'))
    (added : tree'.inorder.Perm ((dict.next, key) :: tree.inorder)) : Owns dict' tree' := by
  have alloc : allocDict dict = .ok (.node dict.next, { dict with
      memory := fun pointer =>
        if pointer = .node dict.next then some Dnode.zeroed else dict.memory pointer
      next := dict.next + 1 }) := rfl
  rw [dictAllocInsert, action_bind alloc] at run
  have kept := ((keeps_store (.node dict.next) Dnode.unlink).bind fun _ =>
    (keeps_dictInsert compare (.node dict.next) key).bind fun _ => keeps_pure (1 : Int))
      _ _ _ run
  intro a
  rw [kept]
  have members : a ∈ addresses tree' ↔ a = dict.next ∨ a ∈ addresses tree := by
    rw [addresses, (added.map Prod.fst).mem_iff, List.map_cons, List.mem_cons]
    rfl
  rw [members, ← owns a]
  by_cases new : a = dict.next
  · simp [new]
  · simp [new]

/-- `dict_delete_free` takes one node away. -/
theorem Owns.delete (owns : Owns dict tree) {entry : Nat × κ}
    (run : dictDeleteFree (.node entry.1) dict = .ok ((), dict'))
    (distinct : (addresses tree).Nodup)
    (removed : tree.inorder.Perm (entry :: tree'.inorder)) : Owns dict' tree' := by
  change (dictDelete (.node entry.1) dict >>= fun outcome => freeDict (.node entry.1) outcome.2) =
    _ at run
  obtain ⟨⟨_, between⟩, deleted, freed⟩ := Exec.bind_eq_ok.mp run
  obtain ⟨rfl, -⟩ := freeDict_eq_ok.mp freed
  intro a
  have members : a ∈ addresses tree ↔ a = entry.1 ∨ a ∈ addresses tree' := by
    rw [addresses, (removed.map Prod.fst).mem_iff, List.map_cons, List.mem_cons]
    rfl
  have gone : entry.1 ∉ addresses tree' := by
    rw [addresses, (removed.map Prod.fst).nodup_iff, List.map_cons, List.nodup_cons] at distinct
    exact distinct.1
  have kept := keeps_dictDelete _ _ _ _ deleted (.node a)
  by_cases freedNode : a = entry.1
  · subst freedNode
    simp [Dict.without, gone]
  · have other : Pointer.node a ≠ .node entry.1 := fun same => freedNode (Pointer.node.inj same)
    rw [Dict.without]
    dsimp only
    rw [if_neg other, kept, owns a, members]
    exact or_iff_right freedNode

end Owns

end M2Handler.Adt

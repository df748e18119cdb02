import M2Handler.Adt.Rewriting

/-!
# The adjustments after a deletion

`dict_delete` paints the root red, so that its loop ends there, and then rewrites
the tree as the repair after a removal does.
-/

namespace M2Handler.Adt

open M2Handler.Machine M2Handler.RedBlack M2Handler.RedBlack.Tree

variable {κ : Type}

/-! ## Beside a black sister -/

section Beside

variable (path : List (Frame (Nat × κ))) (side : Side) (color inner : Color)
  (short near far : RedBlack.Tree (Nat × κ)) (value middle : Nat × κ)

/-- Reading a field of the sister. -/
theorem rewrites_load_sister {β : Type} (field : Dnode κ → β) :
    Rewrites (load (.node middle.1) field)
      (plug path (join side color short value (join side inner near middle far)))
      (field (Dnode.linked side (address near) (address far) (.node value.1) inner middle.2))
      (plug path (join side color short value (join side inner near middle far))) := by
  have read := rewrites_load (⟨side.other, color, value, short⟩ :: path) side inner near far middle
    field
  rwa [plug_cons, Frame.fill, join_other] at read

/-- The last rotation, which takes the colour of the parent to the sister. -/
theorem rewrites_lastRotation (nonempty : far ≠ .nil) :
    Rewrites (do
      let parentColor ← load (.node value.1) Dnode.color
      store (.node middle.1) (Dnode.setColor parentColor)
      let far ← load (.node middle.1) (Dnode.child side.other)
      store far (Dnode.setColor .black)
      store (.node value.1) (Dnode.setColor .black)
      rotate side (.node value.1))
      (plug path (join side color short value (join side inner near middle far))) ()
      (plug path (join side color (join side .black short value near) middle
        (far.paint .black))) := by
  have recoloured := rewrites_paint_join (⟨side.other, color, value, short⟩ :: path) side inner color
    near far middle
  have blackened := rewrites_paint_far (⟨side.other, color, value, short⟩ :: path) side color near
    far middle .black fun empty => absurd empty nonempty
  rw [plug_cons, plug_cons, Frame.fill, Frame.fill, join_other, join_other] at recoloured blackened
  refine (rewrites_load path side color short _ value Dnode.color).bind ?_
  rw [color_linked]
  refine recoloured.bind ?_
  refine (rewrites_load_sister path side color color short near far value middle
    (Dnode.child side.other)).bind ?_
  rw [child_other_linked]
  refine blackened.bind ?_
  refine (rewrites_paint_join path side color .black short _ value).bind ?_
  exact rewrites_rotate path side .black color short near (far.paint .black) value middle

end Beside

/-- A black sister with a red child ends the repair. -/
theorem rewrites_deleteRotations (path : List (Frame (Nat × κ))) (side : Side)
    (color inner : Color) (short near far : RedBlack.Tree (Nat × κ)) (value middle : Nat × κ)
    (nephew : ¬(near.color = .black ∧ far.color = .black)) :
    Rewrites (do
      deleteRotations side (.node value.1) (.node middle.1)
      pure false)
      (plug path (join side color short value (join side inner near middle far)))
      (blackSister side color value (join side inner near middle far) short).goesOn
      (plug path (blackSister side color value (join side inner near middle far) short).tree) := by
  have farColor := rewrites_color_far (⟨side.other, color, value, short⟩ :: path) side inner near
    far middle
  rw [plug_cons, Frame.fill] at farColor
  dsimp only at farColor
  rw [join_other] at farColor
  have ends (tree : RedBlack.Tree (Nat × κ)) := rewrites_pure false (plug path tree)
  rcases nephews side near far with both | ⟨left, top, right, rfl, blackFar⟩ | redFar
  · exact absurd both nephew
  · rw [blackSister_near blackFar]
    refine Rewrites.bind (?_ : Rewrites _ _ () _) (ends _)
    unfold deleteRotations
    refine (rewrites_load_sister path side color inner short _ far value middle
      (Dnode.child side.other)).bind ?_
    rw [child_other_linked]
    refine farColor.bind ?_
    rw [if_pos blackFar]
    have blackened := rewrites_paint_near (⟨side.other, color, value, short⟩ :: path) side inner
      (join side .red left top right) far middle .black fun _ => rfl
    have reddened := rewrites_paint_join (⟨side.other, color, value, short⟩ :: path) side inner
      .red (join side .black left top right) far middle
    have turned := rewrites_rotate (⟨side.other, color, value, short⟩ :: path) side.other .red
      .black far right left middle top
    simp only [plug_cons, Frame.fill, join_other, paint_join, address_join]
      at blackened reddened turned
    refine (rewrites_load_sister path side color inner short _ far value middle
      (Dnode.child side)).bind ?_
    rw [child_linked, address_join]
    refine blackened.bind ?_
    refine reddened.bind ?_
    refine turned.bind ?_
    refine (rewrites_load path side color short _ value (Dnode.child side.other)).bind ?_
    rw [child_other_linked, address_join]
    have last := rewrites_lastRotation path side color .black short left
      (join side .red right middle far) value top (join_ne_nil _ _ _ _ _)
    rwa [paint_join] at last
  · rw [blackSister_far redFar]
    refine Rewrites.bind (?_ : Rewrites _ _ () _) (ends _)
    unfold deleteRotations
    refine (rewrites_load_sister path side color inner short near far value middle
      (Dnode.child side.other)).bind ?_
    rw [child_other_linked]
    refine farColor.bind ?_
    rw [redFar, if_neg (by decide)]
    refine (rewrites_pure _ _).bind ?_
    exact rewrites_lastRotation path side color inner short near far value middle
      (ne_nil_of_red redFar)

/-- The adjustments beside a sister, and whether they go on. -/
theorem rewrites_adjustBeside (path : List (Frame (Nat × κ))) (side : Side) (color : Color)
    (short : RedBlack.Tree (Nat × κ)) (value : Nat × κ) {sister : RedBlack.Tree (Nat × κ)}
    (nonempty : sister ≠ .nil) :
    Rewrites (adjustBeside side (.node value.1) (address sister))
      (plug path (join side color short value sister))
      (blackSister side color value sister short).goesOn
      (plug path (blackSister side color value sister short).tree) := by
  obtain ⟨inner, near, middle, far, rfl⟩ := exists_join side nonempty
  have nearColor := rewrites_color_near (⟨side.other, color, value, short⟩ :: path) side inner near
    far middle
  have farColor := rewrites_color_far (⟨side.other, color, value, short⟩ :: path) side inner near
    far middle
  have reddened := rewrites_paint_join (⟨side.other, color, value, short⟩ :: path) side inner .red
    near far middle
  simp only [plug_cons, Frame.fill, join_other] at nearColor farColor reddened
  rw [address_join]
  unfold adjustBeside
  refine (rewrites_load_sister path side color inner short near far value middle
    (Dnode.child side)).bind ?_
  rw [child_linked]
  refine nearColor.bind ?_
  refine (rewrites_load_sister path side color inner short near far value middle
    (Dnode.child side.other)).bind ?_
  rw [child_other_linked]
  refine farColor.bind ?_
  by_cases both : near.color = .black ∧ far.color = .black
  · rw [if_pos both, blackSister_black both.1 both.2]
    exact reddened.bind (rewrites_pure _ _)
  · rw [if_neg both]
    exact rewrites_deleteRotations path side color inner short near far value middle both

/-! ## Under the parent -/

section Under

variable {path : List (Frame (Nat × κ))} {parent : Frame (Nat × κ)}
  {short : RedBlack.Tree (Nat × κ)}

/-- The links of the parent tell the side of the child and lead to the sister. -/
theorem rewrites_adjustUnder {result : Bool} {tree' : RedBlack.Tree (Nat × κ)}
    (distinct : (addresses (plug (parent :: path) short)).Nodup)
    (nonempty : parent.sibling ≠ .nil)
    (decided : Rewrites (do
      let sister ←
        if parent.sibling.color = .red then do
          store (address parent.sibling) (Dnode.setColor .black)
          store (.node parent.value.1) (Dnode.setColor .red)
          rotate parent.side (.node parent.value.1)
          load (.node parent.value.1) (Dnode.child parent.side.other)
        else pure (address parent.sibling)
      adjustBeside parent.side (.node parent.value.1) sister)
      (plug (parent :: path) short) result tree') :
    Rewrites (adjustUnder (address short) (.node parent.value.1)) (plug (parent :: path) short)
      result tree' := by
  have apart : address short ≠ address parent.sibling := by
    rw [plug_cons, nodup_addresses_plug] at distinct
    exact address_ne_address distinct.1 nonempty
  have atParent {β : Type} (field : Dnode κ → β) := rewrites_load path parent.side parent.color
    short parent.sibling parent.value field
  unfold adjustUnder
  refine (atParent Dnode.left).bind ?_
  rw [side_of_linked _ _ _ _ _ _ apart]
  refine (atParent (Dnode.child parent.side.other)).bind ?_
  rw [child_other_linked]
  exact (rewrites_color_far path parent.side parent.color short parent.sibling parent.value).bind
    decided

theorem rewrites_adjustUnder_black (distinct : (addresses (plug (parent :: path) short)).Nodup)
    (nonempty : parent.sibling ≠ .nil) (black : parent.sibling.color = .black) :
    Rewrites (adjustUnder (address short) (.node parent.value.1)) (plug (parent :: path) short)
      (blackSister parent.side parent.color parent.value parent.sibling short).goesOn
      (plug path
        (blackSister parent.side parent.color parent.value parent.sibling short).tree) := by
  apply rewrites_adjustUnder distinct nonempty
  rw [black, if_neg (by decide)]
  refine (rewrites_pure _ _).bind ?_
  exact rewrites_adjustBeside path parent.side parent.color short parent.value nonempty

theorem rewrites_adjustUnder_red (distinct : (addresses (plug (parent :: path) short)).Nodup)
    {near far : RedBlack.Tree (Nat × κ)} {middle : Nat × κ}
    (sibling : parent.sibling = join parent.side .red near middle far) (nonempty : near ≠ .nil) :
    Rewrites (adjustUnder (address short) (.node parent.value.1)) (plug (parent :: path) short)
      (blackSister parent.side .red parent.value near short).goesOn
      (plug path (join parent.side .black
        (blackSister parent.side .red parent.value near short).tree middle far)) := by
  obtain ⟨side, color, value, sister⟩ := parent
  dsimp only at sibling
  subst sibling
  apply rewrites_adjustUnder distinct (join_ne_nil _ _ _ _ _)
  have blackened := rewrites_paint_far path side color short (join side .red near middle far) value
    .black fun _ => rfl
  have found := rewrites_load (⟨side, .black, middle, far⟩ :: path) side .red short near value
    (Dnode.child side.other)
  rw [child_other_linked] at found
  dsimp only
  rw [color_join, if_pos rfl]
  refine blackened.bind ?_
  rw [paint_join]
  refine (rewrites_paint_join path side color .red short _ value).bind ?_
  refine (rewrites_rotate path side .red .black short near far value middle).bind ?_
  refine found.bind ?_
  exact rewrites_adjustBeside (⟨side, .black, middle, far⟩ :: path) side .red short value nonempty

end Under

/-! ## The loop -/

/-- A red child ends the loop and is painted black. -/
theorem rewrites_deleteLoop_red (path : List (Frame (Nat × κ))) {short : RedBlack.Tree (Nat × κ)}
    (fuel : Nat) (red : short.color = .red) :
    Rewrites (do
      let child ← deleteLoop (fuel + 1) (address short)
      store child (Dnode.setColor .black))
      (plug path short) () (plug path (short.paint .black)) := by
  have exits : Rewrites (deleteLoop (fuel + 1) (address short)) (plug path short) (address short)
      (plug path short) := by
    unfold deleteLoop
    refine (rewrites_color path short).bind ?_
    rw [red, if_neg (by decide)]
    exact rewrites_pure _ _
  exact exits.bind (rewrites_paint path short .black fun _ => rfl)

/-- One round of the loop under a black child. -/
theorem deleteLoop_black {dict : Dict κ} {child parent : Pointer} {node : Dnode κ} (fuel : Nat)
    (found : dict.memory child = some node) (black : node.color = .black)
    (up : node.parent = parent) :
    (do
      let last ← deleteLoop (fuel + 1) child
      store last (Dnode.setColor .black) : DictM κ Unit) dict =
      (do
        let goesOn ← adjustUnder child parent
        if goesOn then do
          let last ← deleteLoop fuel parent
          store last (Dnode.setColor .black)
        else store child (Dnode.setColor .black) : DictM κ Unit) dict := by
  rw [deleteLoop, bind_assoc, load_bind found, black, if_pos rfl, bind_assoc, load_bind found, up,
    bind_assoc]
  refine congrFun (congrArg (adjustUnder child parent >>= ·) (funext fun goesOn => ?_)) dict
  cases goesOn <;> simp

/-- A repair that ended leaves the child black inside the tree, where the last
store of the loop changes nothing. -/
theorem rewrites_paint_inside (path : List (Frame (Nat × κ))) {side : Side} {color : Color}
    {value : Nat × κ} {sister short tree : RedBlack.Tree (Nat × κ)} (black : short.color = .black)
    (full : blackSister side color value sister short = .full tree) :
    Rewrites (store (address short) (Dnode.setColor .black)) (plug path tree) ()
      (plug path tree) := by
  obtain ⟨inside, rfl⟩ := blackSister_full full
  have stored := rewrites_paint (inside ++ path) short .black fun _ => rfl
  rwa [← black, paint_self, black, plug_append] at stored

/-- Under a red sister the repair ends, after two rounds at most. -/
theorem rewrites_redSister {path : List (Frame (Nat × κ))} {parent : Frame (Nat × κ)}
    {short : RedBlack.Tree (Nat × κ)} {height : Nat} (fuel : Nat)
    (distinct : (addresses (plug (parent :: path) short)).Nodup) (black : short.color = .black)
    (sibling : Balanced parent.sibling (height + 1)) (red : parent.sibling.color = .red) :
    Rewrites (do
      let goesOn ← adjustUnder (address short) (.node parent.value.1)
      if goesOn then do
        let last ← deleteLoop (fuel + 1) (.node parent.value.1)
        store last (Dnode.setColor .black)
      else store (address short) (Dnode.setColor .black))
      (plug (parent :: path) short) () (plug path (redSister parent short)) := by
  obtain ⟨inner, near, middle, far, same⟩ := exists_join parent.side (ne_nil_of_red red)
  obtain rfl : inner = .red := by simpa [same] using red
  rw [same] at sibling
  obtain ⟨balancedNear, -⟩ := balanced_red_iff.mp sibling
  refine (rewrites_adjustUnder_red distinct same balancedNear.ne_nil).bind ?_
  rw [redSister_join same]
  cases repaired : blackSister parent.side .red parent.value near short with
  | full tree =>
      exact rewrites_paint_inside (⟨parent.side, .black, middle, far⟩ :: path) black repaired
  | short tree =>
      obtain ⟨beside, rfl⟩ := blackSister_short repaired
      have red : (join parent.side .red short parent.value beside).color = .red :=
        color_join _ _ _ _ _
      have ended := rewrites_deleteLoop_red (⟨parent.side, .black, middle, far⟩ :: path) fuel red
      rwa [address_join] at ended

/-- Under a black sister with a red child the repair ends. -/
theorem rewrites_blackSister_full {path : List (Frame (Nat × κ))} {parent : Frame (Nat × κ)}
    {short tree : RedBlack.Tree (Nat × κ)} (fuel : Nat)
    (distinct : (addresses (plug (parent :: path) short)).Nodup) (black : short.color = .black)
    (nonempty : parent.sibling ≠ .nil) (sister : parent.sibling.color = .black)
    (full : blackSister parent.side parent.color parent.value parent.sibling short = .full tree) :
    Rewrites (do
      let goesOn ← adjustUnder (address short) (.node parent.value.1)
      if goesOn then do
        let last ← deleteLoop fuel (.node parent.value.1)
        store last (Dnode.setColor .black)
      else store (address short) (Dnode.setColor .black))
      (plug (parent :: path) short) () (plug path tree) := by
  refine (rewrites_adjustUnder_black distinct nonempty sister).bind ?_
  rw [full]
  exact rewrites_paint_inside path black full

/-- The loop rewrites the tree with its root painted red as the repair does, up to
the colour of the root. -/
theorem deleteLoop_run {path : List (Frame (Nat × κ))} {short : RedBlack.Tree (Nat × κ)}
    {height fuel : Nat} (level : Level path (height + 1)) (isShort : path ≠ [] → Short short height)
    (redRoot : (plug path short).color = .red) (enough : path.length ≤ fuel) {dict : Dict κ}
    (holds : Holds dict (plug path short))
    (up : (dict.memory (address short)).map Dnode.parent = some (above path)) :
    ∃ dict' tree', (do
        let child ← deleteLoop (fuel + 1) (address short)
        store child (Dnode.setColor .black) : DictM κ Unit) dict = .ok ((), dict') ∧
      tree'.paint .black = deleteFixup path short ∧ Holds dict' tree' ∧
      Untouched (plug path short) dict dict' := by
  induction path generalizing short height fuel dict with
  | nil =>
      obtain ⟨dict', run, held, untouched⟩ := (rewrites_deleteLoop_red [] fuel redRoot).2 dict holds
      exact ⟨dict', _, run, by simp [deleteFixup], held, untouched⟩
  | cons parent path ih =>
      obtain ⟨sibling, levelAbove⟩ := level
      obtain ⟨fuel, rfl⟩ : ∃ less, fuel = less + 1 := ⟨fuel - 1, by simp at enough; omega⟩
      cases color : short.color with
      | red =>
          obtain ⟨dict', run, held, untouched⟩ :=
            (rewrites_deleteLoop_red (parent :: path) (fuel + 1) color).2 dict holds
          exact ⟨dict', _, run, by rw [deleteFixup, if_pos color], held, untouched⟩
      | black =>
          have balancedShort : Balanced short height := by
            simpa only [Short, color] using isShort (by simp)
          obtain ⟨stored, around, distinct, -⟩ := holds_plug.mp holds
          obtain ⟨node, found, nodeColor⟩ := around.record stored
          have nodeParent : node.parent = .node parent.value.1 := by simpa [found, above] using up
          rw [deleteLoop_black (fuel + 1) found (nodeColor.trans color) nodeParent]
          have notRed : ¬short.color = .red := by simp [color]
          cases sister : parent.sibling.color with
          | red =>
              obtain ⟨dict', run, held, untouched⟩ :=
                (rewrites_redSister fuel distinct color sibling sister).2 dict holds
              exact ⟨dict', _, run, by rw [deleteFixup, if_neg notRed, if_pos sister], held,
                untouched⟩
          | black =>
              have blackSibling : ¬parent.sibling.color = .red := by simp [sister]
              cases repaired : blackSister parent.side parent.color parent.value parent.sibling
                  short with
              | full tree =>
                  obtain ⟨dict', run, held, untouched⟩ := (rewrites_blackSister_full (fuel + 1)
                    distinct color sibling.ne_nil sister repaired).2 dict holds
                  exact ⟨dict', _, run,
                    by rw [deleteFixup, if_neg notRed, if_neg blackSibling, repaired], held,
                    untouched⟩
              | short tree =>
                  have under := rewrites_adjustUnder_black distinct sibling.ne_nil sister
                  obtain ⟨-, outcome⟩ := balanced_blackSister parent.side parent.color parent.value
                    balancedShort sibling sister
                  rw [repaired] at under outcome
                  obtain ⟨beside, rfl⟩ := blackSister_short repaired
                  obtain ⟨between, runUnder, held, untouched⟩ := under.2 dict holds
                  have record := (stored_join.mp (holds_plug.mp held).1).1
                  have rootColor : (plug path (join parent.side parent.color short parent.value
                      beside)).color = .red := by
                    rw [← redRoot]
                    exact color_plug_congr path (by simp [Frame.fill])
                  rw [Color.over_succ] at levelAbove
                  obtain ⟨dict', tree', run, painted, held', untouched'⟩ := ih levelAbove
                    (fun _ => outcome) rootColor (by simp at enough; omega) held
                    (by rw [address_join, record, Option.map_some, parent_linked])
                  refine ⟨dict', tree', ?_, ?_, held', untouched.trans untouched' under.1⟩
                  · rw [action_bind runUnder]
                    rw [address_join] at run
                    exact run
                  · rw [deleteFixup, if_neg notRed, if_neg blackSibling, repaired, painted]

end M2Handler.Adt

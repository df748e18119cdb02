import M2Handler.Machine.Refinement
import M2Handler.Websocket.RoundTrip
import Mathlib.Data.List.Permutation

/-!
# Sequences of setters

The setters of a frame buffer as steps on its layout.  Any sequence of them keeps
the header that `create` wrote, and their order shows in the buffer only where a
mask is stored before the payload.
-/

namespace M2Handler.Websocket.Framing

open Machine

variable (host : Host)

/-- The calls of the setters. -/
inductive Setter where
  | setFin
  | setOpcode (opcode : UInt32)
  | setPayload (data : Bytes)
  | setMask (mask : UInt32)

def Setter.run (len : Nat) : Setter → Bytes → Exec (Int × Bytes)
  | .setFin, frame => mongrel2WsFrameSetFin host len frame
  | .setOpcode opcode, frame => mongrel2WsFrameSetOpcode host len frame opcode
  | .setPayload data, frame => mongrel2WsFrameSetPayload host len frame data
  | .setMask mask, frame => mongrel2WsFrameSetMask host len frame mask

/-- The layout after `set_mask`, which leaves a layout without a mask field as it
is. -/
def Layout.remask (layout : Layout) (mask : UInt32) : Layout :=
  if same : (host.endian.bytes 4 mask.toNat).length = layout.maskField.length then
    (layout.withMaskField (host.endian.bytes 4 mask.toNat) same).withPayload
      (xorPrefix (host.endian.bytes 4 mask.toNat) (layout.declaredSize host).toNat layout.payload)
  else layout

def Setter.apply : Setter → Layout → Layout
  | .setFin, layout => layout.withFirst (layout.first ||| 0x80)
  | .setOpcode opcode, layout => layout.withFirst (layout.first ||| (0x0F &&& opcode).toUInt8)
  | .setPayload data, layout => layout.withPayload data
  | .setMask mask, layout => layout.remask host mask

def layouts : Specification Setter Layout Int where
  allowed layout
    | .setPayload data => data.length = layout.payload.length
    | _ => True
  next layout setter := setter.apply host layout
  answer layout
    | .setMask _ => if maskBit layout.second = 1 then 0 else -1
    | _ => 0

/-- The buffer of a layout that holds the payload it declares. -/
structure Renders (len : Nat) (frame : Bytes) (layout : Layout) : Prop where
  bytes : frame = layout.bytes
  len_eq : len = layout.bytes.length
  declared_le : (layout.declaredSize host).toNat ≤ layout.payload.length
  fits : layout.payload.length ≤ 2147483647

/-! ## What a setter keeps -/

theorem fin_reserved (first : UInt8) : (first ||| 0x80) &&& 0x70 = first &&& 0x70 := by
  revert first
  apply forall_byte
  decide +kernel

theorem opcode_reserved (first : UInt8) (opcode : UInt32) :
    (first ||| (0x0F &&& opcode).toUInt8) &&& 0x70 = first &&& 0x70 := by
  have low : ∀ byte : UInt8, (0x0F &&& byte) &&& 0x70 = 0 := by
    apply forall_byte
    decide +kernel
  have cut : (0x0F &&& opcode).toUInt8 = 0x0F &&& opcode.toUInt8 := UInt32.toUInt8_and _ _
  have zero := congrArg UInt8.toNat (low opcode.toUInt8)
  apply UInt8.toNat_inj.mp
  rw [UInt8.toNat_and, UInt8.toNat_zero] at zero
  rw [cut, UInt8.toNat_and, UInt8.toNat_or, Nat.and_or_distrib_right, zero, Nat.or_zero,
    UInt8.toNat_and]

theorem sameHeader_apply {layout : Layout} (setter : Setter)
    (allowed : (layouts host).allowed layout setter) :
    SameHeader layout (setter.apply host layout) := by
  cases setter with
  | setFin => exact ⟨rfl, rfl, rfl, fin_reserved _⟩
  | setOpcode opcode => exact ⟨rfl, rfl, rfl, opcode_reserved _ opcode⟩
  | setPayload data => exact ⟨rfl, rfl, allowed, rfl⟩
  | setMask mask =>
      rw [Setter.apply, Layout.remask]
      split
      · exact ⟨rfl, rfl, length_xorPrefix _ _ _, rfl⟩
      · exact ⟨rfl, rfl, rfl, rfl⟩

/-- A setter on the buffer of a layout. -/
theorem simulates_layouts (ndebug : host.ndebug = true) (len : Nat) :
    Simulates (Setter.run host len) (layouts host) (Renders host len) where
  returns {frame layout} setter renders allowed := by
    obtain ⟨rfl, rfl, declared, fits⟩ := renders
    have same := sameHeader_apply host setter allowed
    have two : 1 < layout.bytes.length := by
      rw [layout.length_bytes, Layout.payloadStart]
      omega
    have renders' : Renders host layout.bytes.length (setter.apply host layout).bytes
        (setter.apply host layout) :=
      ⟨rfl, same.length_bytes.symm, by rw [same.declaredSize host, same.payload_length]; exact declared,
        by rw [same.payload_length]; exact fits⟩
    refine ⟨_, ?_, renders'⟩
    cases setter with
    | setFin => exact layout.setFin host (by omega)
    | setOpcode opcode => exact layout.setOpcode host opcode (by omega)
    | setPayload data => exact layout.setPayload host allowed two
    | setMask mask =>
        change mongrel2WsFrameSetMask host _ _ mask =
          .ok (if maskBit layout.second = 1 then 0 else -1, (layout.remask host mask).bytes)
        have four : (host.endian.bytes 4 mask.toNat).length = 4 := by simp
        rcases maskBit_cases layout.second with unmasked | masked
        · have field : layout.maskField.length = 0 := by
            rw [layout.mask_length, maskWidth, unmasked]
            rfl
          rw [unmasked, if_neg (by decide), Layout.remask, dif_neg (by rw [four, field]; decide)]
          exact layout.setMask_unmasked host mask unmasked (.inl ndebug) two
        · have field : layout.maskField.length = 4 := by
            rw [layout.mask_length, maskWidth, if_pos masked]
          have long : 5 < layout.bytes.length := by
            rw [layout.length_bytes, Layout.payloadStart, field]
            omega
          rw [if_pos masked, Layout.remask, dif_pos (by rw [four, field])]
          exact layout.setMask host mask masked long declared (by omega) _

/-! ## Runs -/

def Sized (length : Nat) (setters : List Setter) : Prop :=
  ∀ data, .setPayload data ∈ setters → data.length = length

theorem allowedFrom_layouts {layout : Layout} {setters : List Setter}
    (sized : Sized layout.payload.length setters) : (layouts host).AllowedFrom layout setters := by
  induction setters generalizing layout with
  | nil => trivial
  | cons setter setters ih =>
      have allowed : (layouts host).allowed layout setter := by
        cases setter with
        | setPayload data => exact sized data List.mem_cons_self
        | setFin | setOpcode _ | setMask _ => trivial
      have same := sameHeader_apply host setter allowed
      refine ⟨allowed, ih fun data member => ?_⟩
      exact (sized data (List.mem_cons_of_mem _ member)).trans same.payload_length.symm

theorem sameHeader_after {layout : Layout} {setters : List Setter}
    (sized : Sized layout.payload.length setters) :
    SameHeader layout ((layouts host).after layout setters) := by
  have kept {abstract : Layout} (setter : Setter) (same : SameHeader layout abstract)
      (allowed : (layouts host).allowed abstract setter) :
      SameHeader layout ((layouts host).next abstract setter) :=
    same.trans (sameHeader_apply host setter allowed)
  exact (layouts host).after_keeps kept ⟨rfl, rfl, rfl, rfl⟩ (allowedFrom_layouts host sized)

section Created

variable (ndebug : host.ndebug = true) (useMask : Bool) {n : Nat} (fits : n ≤ 2147483647)
  {size : UInt64} {buffer : Bytes}
  (returned : mongrel2WsFrameCreate host (flag useMask) (UInt64.ofNat n) =
    .ok (0, size, some buffer))
include ndebug fits returned

/-- The buffer of `create` is that of its layout. -/
theorem renders_created :
    Renders host size.toNat buffer (created host useMask n) ∧
      (created host useMask n).payload.length = n := by
  obtain ⟨rfl, sized⟩ := create_inv host useMask fits ndebug returned
  have payload : (created host useMask n).payload.length = n := List.length_replicate
  have declared := declaredSize_created host useMask n (by omega)
  refine ⟨⟨rfl, ?_, ?_, ?_⟩, payload⟩
  · rw [sized, length_created]
  · rw [declared, payload]
    split <;> omega
  · rw [payload]
    exact fits

/-- A run of setters ends in the buffer of its last layout. -/
theorem run_setters {setters : List Setter} (sized : Sized n setters) :
    ∃ frame, runCalls (Setter.run host size.toNat) setters buffer =
        .ok ((layouts host).answers (created host useMask n) setters, frame) ∧
      Renders host size.toNat frame ((layouts host).after (created host useMask n) setters) := by
  obtain ⟨renders, payload⟩ := renders_created host ndebug useMask fits returned
  rw [← payload] at sized
  exact (simulates_layouts host ndebug size.toNat).run_returns renders
    (allowedFrom_layouts host sized)

end Created

/-! ## The layout is kept -/

/-- The buffer has the layout that `create` gave it: the payload range ends with
the buffer, the mask field lies in front of it, and the bytes from the second one
to the end of the extended length and the three reserved bits are unchanged. -/
structure KeepsLayout (useMask : Bool) (n len : Nat) (buffer frame : Bytes) : Prop where
  lengths : buffer.length = len ∧ frame.length = len
  payload : ∃ start : Nat, mongrel2WsFrameGetPayloadStart host len frame = .ok (start : Int) ∧
    len = start + n ∧
    (frame.drop 1).take (start - 1 - if useMask then 4 else 0) =
      (buffer.drop 1).take (start - 1 - if useMask then 4 else 0) ∧
    (useMask = true → ∃ maskStart : Nat,
      mongrel2WsFrameGetMaskStart host len frame = .ok (maskStart : Int) ∧ maskStart + 4 = start)
  maskPresent : mongrel2WsFrameGetMaskPresent host len frame =
    mongrel2WsFrameGetMaskPresent host len buffer
  payloadType : mongrel2WsFrameGetPayloadType host len frame =
    mongrel2WsFrameGetPayloadType host len buffer
  reserved : ∃ first first', buffer.head? = some first ∧ frame.head? = some first' ∧
    first' &&& 0x70 = first &&& 0x70
  refuses : useMask = false → ∀ mask,
    mongrel2WsFrameSetMask host len frame mask = .ok (-1, frame)

theorem Layout.take_header (layout : Layout) :
    (layout.bytes.drop 1).take (1 + layout.extended.length) = layout.second :: layout.extended := by
  rw [bytes, List.drop_one, List.tail_cons, Nat.add_comm, List.take_succ_cons, List.append_assoc,
    List.take_left]

/-- A layout with the header of a created one keeps it. -/
theorem keepsLayout_of_sameHeader (ndebug : host.ndebug = true) (useMask : Bool) {n : Nat}
    {layout : Layout} (same : SameHeader (created host useMask n) layout) :
    KeepsLayout host useMask n layout.bytes.length (created host useMask n).bytes layout.bytes := by
  have payload : (created host useMask n).payload.length = n := List.length_replicate
  have bit : maskBit layout.second = if useMask then 1 else 0 := by
    rw [same.second]
    exact maskBit_secondByte useMask n
  have field : layout.maskField.length = if useMask then 4 else 0 := by
    rw [layout.mask_length, maskWidth, bit]
    cases useMask <;> rfl
  have two : 1 < layout.bytes.length := by
    rw [layout.length_bytes, Layout.payloadStart]
    omega
  refine ⟨⟨same.length_bytes.symm, rfl⟩, ⟨layout.payloadStart, layout.getPayloadStart host two,
    ?_, ?_, ?_⟩, ?_, ?_, ⟨_, _, rfl, rfl, same.reserved⟩, ?_⟩
  · rw [layout.length_bytes, same.payload_length, payload]
  · have width : layout.payloadStart - 1 - (if useMask then 4 else 0) =
        1 + layout.extended.length := by
      rw [← field, Layout.payloadStart]
      omega
    have header := (created host useMask n).take_header
    rw [← same.extended, ← same.second] at header
    rw [width, layout.take_header, header]
  · rintro rfl
    have masked : maskBit layout.second = 1 := bit
    have four : layout.maskField.length = 4 := field
    refine ⟨_, layout.getMaskStart host masked ?_, ?_⟩
    · rw [layout.length_bytes, Layout.payloadStart]
      omega
    · rw [Layout.payloadStart, four]
  · rw [layout.getMaskPresent host two, Layout.getMaskPresent host _ two, same.second]
  · rw [layout.getPayloadType host two, Layout.getPayloadType host _ two, same.second]
  · rintro rfl mask
    exact layout.setMask_unmasked host mask bit (.inl ndebug) two

/-- Every sequence of setters keeps the layout of the buffer. -/
theorem setters_keep_layout (ndebug : host.ndebug = true) (useMask : Bool) {n : Nat}
    (fits : n ≤ 2147483647) {size : UInt64} {buffer : Bytes}
    (returned : mongrel2WsFrameCreate host (flag useMask) (UInt64.ofNat n) =
      .ok (0, size, some buffer))
    {setters : List Setter} (sized : Sized n setters) :
    ∃ codes frame, runCalls (Setter.run host size.toNat) setters buffer = .ok (codes, frame) ∧
      KeepsLayout host useMask n size.toNat buffer frame := by
  obtain ⟨frame, ran, renders⟩ := run_setters host ndebug useMask fits returned sized
  obtain ⟨started, payload⟩ := renders_created host ndebug useMask fits returned
  rw [← payload] at sized
  have keeps := keepsLayout_of_sameHeader host ndebug useMask (sameHeader_after host sized)
  rw [← renders.len_eq, ← renders.bytes, ← started.bytes] at keeps
  exact ⟨_, frame, ran, keeps⟩

/-- A mask is refused between two payloads of one byte. -/
theorem setters_keep_layout_one :
    ∃ codes frame, runCalls (Setter.run linuxHost 3)
        [.setPayload [7], .setMask 5, .setFin, .setPayload [8]] [0, 1, 0] = .ok (codes, frame) ∧
      KeepsLayout linuxHost false 1 3 [0, 1, 0] frame := by
  have returned : mongrel2WsFrameCreate linuxHost (flag false) (UInt64.ofNat 1) =
      .ok (0, 3, some [0, 1, 0]) := rfl
  refine setters_keep_layout linuxHost rfl false (by decide) returned ?_
  intro data member
  simp only [List.mem_cons, Setter.setPayload.injEq, List.not_mem_nil, reduceCtorEq,
    false_or, or_false] at member
  rcases member with rfl | rfl <;> rfl

/-! ## The order of the setters -/

def Setter.bits : Setter → UInt8
  | .setFin => 0x80
  | .setOpcode opcode => (0x0F &&& opcode).toUInt8
  | _ => 0

def Setter.isBody : Setter → Bool
  | .setPayload _ => true
  | .setMask _ => true
  | _ => false

def headBits (setters : List Setter) : UInt8 :=
  setters.foldr (fun setter bits => setter.bits ||| bits) 0

theorem apply_head {setter : Setter} (head : setter.isBody = false) (layout : Layout) :
    setter.apply host layout = layout.withFirst (layout.first ||| setter.bits) := by
  cases setter with
  | setFin => rfl
  | setOpcode opcode => rfl
  | setPayload data => cases head
  | setMask mask => cases head

theorem bits_body {setter : Setter} (body : setter.isBody = true) : setter.bits = 0 := by
  cases setter with
  | setPayload data => rfl
  | setMask mask => rfl
  | setFin => cases body
  | setOpcode opcode => cases body

/-- A setter of the body commutes with a change of the first byte. -/
theorem apply_withFirst {setter : Setter} (body : setter.isBody = true) (layout : Layout)
    (byte : UInt8) :
    setter.apply host (layout.withFirst byte) = (setter.apply host layout).withFirst byte := by
  cases setter with
  | setPayload data => rfl
  | setMask mask =>
      simp only [Setter.apply, Layout.remask]
      split
      · rename_i same
        rw [dif_pos (show _ = layout.maskField.length from same)]
        rfl
      · rename_i different
        rw [dif_neg (show ¬ _ = layout.maskField.length from different)]
  | setFin => cases body
  | setOpcode opcode => cases body

theorem first_body {setter : Setter} (body : setter.isBody = true) (layout : Layout) :
    (setter.apply host layout).first = layout.first := by
  cases setter with
  | setPayload data => rfl
  | setMask mask =>
      rw [Setter.apply, Layout.remask]
      split <;> rfl
  | setFin => cases body
  | setOpcode opcode => cases body

theorem after_withFirst {setters : List Setter} (body : ∀ setter ∈ setters, setter.isBody = true)
    (layout : Layout) (byte : UInt8) :
    (layouts host).after (layout.withFirst byte) setters =
      ((layouts host).after layout setters).withFirst byte := by
  induction setters generalizing layout with
  | nil => rfl
  | cons setter setters ih =>
      have here := apply_withFirst host (body setter List.mem_cons_self) layout byte
      change (layouts host).after (setter.apply host (layout.withFirst byte)) setters = _
      rw [here]
      exact ih (fun other member => body other (List.mem_cons_of_mem _ member)) _

/-- The first byte comes from the setters of the header alone, and the rest from
those of the body. -/
theorem after_split (layout : Layout) (setters : List Setter) :
    (layouts host).after layout setters =
      ((layouts host).after layout (setters.filter Setter.isBody)).withFirst
        (layout.first ||| headBits setters) := by
  induction setters generalizing layout with
  | nil =>
      change layout = layout.withFirst (layout.first ||| 0)
      rw [UInt8.or_zero]
      rfl
  | cons setter setters ih =>
      change (layouts host).after (setter.apply host layout) setters = _
      rw [ih]
      cases body : setter.isBody with
      | true =>
          have bits : headBits (setter :: setters) = headBits setters := by
            change setter.bits ||| headBits setters = _
            rw [bits_body body, UInt8.zero_or]
          rw [List.filter_cons_of_pos body, first_body host body, bits]
          rfl
      | false =>
          have kept : ∀ other ∈ setters.filter Setter.isBody, other.isBody = true :=
            fun other member => (List.mem_filter.mp member).2
          rw [List.filter_cons_of_neg (by simp [body]), apply_head host body,
            after_withFirst host kept]
          change _ = Layout.withFirst _ (layout.first ||| (setter.bits ||| headBits setters))
          rw [← UInt8.or_assoc]
          rfl

theorem headBits_perm {setters setters' : List Setter} (perm : setters.Perm setters') :
    headBits setters = headBits setters' := by
  have exchange : LeftCommutative fun (setter : Setter) (bits : UInt8) => setter.bits ||| bits :=
    ⟨fun first second bits => by
      rw [← UInt8.or_assoc, ← UInt8.or_assoc, UInt8.or_comm first.bits]⟩
  exact perm.foldr_eq 0

/-- The calls that build a frame: each setter once, the mask after the payload. -/
structure BuildOrder (useMask : Bool) (payload : Bytes) (opcode mask : UInt32)
    (setters : List Setter) : Prop where
  each_once : setters.Perm ([.setFin, .setOpcode opcode, .setPayload payload] ++
    if useMask then [.setMask mask] else [])
  mask_later : ∀ earlier later, setters = earlier ++ .setMask mask :: later →
    .setPayload payload ∈ earlier

section Order

variable {useMask : Bool} {payload : Bytes} {opcode mask : UInt32} {setters : List Setter}
  (order : BuildOrder useMask payload opcode mask setters)
include order

theorem sized_of_order : Sized payload.length setters := by
  intro data member
  have listed := order.each_once.mem_iff.mp member
  cases useMask with
  | false =>
      simp only [List.mem_append, List.mem_cons, List.not_mem_nil, reduceCtorEq, or_false,
        false_or, Setter.setPayload.injEq, Bool.false_eq_true, if_false] at listed
      rw [listed]
  | true =>
      simp only [List.mem_append, List.mem_cons, List.not_mem_nil, reduceCtorEq, or_false,
        false_or, Setter.setPayload.injEq, if_true] at listed
      rw [listed]

/-- The payload is set first, then the mask. -/
theorem body_of_order :
    setters.filter Setter.isBody =
      .setPayload payload :: if useMask then [.setMask mask] else [] := by
  have body := order.each_once.filter Setter.isBody
  cases useMask with
  | false => exact List.perm_singleton.mp body
  | true =>
      rcases List.perm_pair.mp body with inOrder | swapped
      · exact inOrder
      · obtain ⟨earlier, later, split, head, -, -⟩ := List.filter_eq_cons_iff.mp swapped
        have before := order.mask_later earlier later split
        exact absurd rfl (head _ before)

end Order

/-- All orders of the setters that store the mask after the payload end in the
same buffer. -/
theorem orders_agree (ndebug : host.ndebug = true) (useMask : Bool) {payload : Bytes}
    (fits : payload.length ≤ 2147483647) {opcode mask : UInt32} {size : UInt64} {buffer : Bytes}
    (returned : mongrel2WsFrameCreate host (flag useMask) (UInt64.ofNat payload.length) =
      .ok (0, size, some buffer))
    {setters setters' : List Setter} (order : BuildOrder useMask payload opcode mask setters)
    (order' : BuildOrder useMask payload opcode mask setters') :
    ∃ codes codes' frame,
      runCalls (Setter.run host size.toNat) setters buffer = .ok (codes, frame) ∧
        runCalls (Setter.run host size.toNat) setters' buffer = .ok (codes', frame) := by
  obtain ⟨frame, ran, renders⟩ :=
    run_setters host ndebug useMask fits returned (sized_of_order order)
  obtain ⟨frame', ran', renders'⟩ :=
    run_setters host ndebug useMask fits returned (sized_of_order order')
  have same : frame' = frame := by
    rw [renders.bytes, renders'.bytes, after_split, after_split host _ setters,
      body_of_order order, body_of_order order',
      headBits_perm (order'.each_once.trans order.each_once.symm)]
  rw [same] at ran'
  exact ⟨_, _, frame, ran, ran'⟩

/-- A masked frame of one byte, with the mask before the flags and between them. -/
theorem orders_agree_one :
    ∃ codes codes' frame,
      runCalls (Setter.run linuxHost 7) [.setPayload [7], .setMask 5, .setFin, .setOpcode 1]
          [0, 0x81, 0, 0, 0, 0, 0] = .ok (codes, frame) ∧
        runCalls (Setter.run linuxHost 7) [.setPayload [7], .setFin, .setMask 5, .setOpcode 1]
          [0, 0x81, 0, 0, 0, 0, 0] = .ok (codes', frame) := by
  have returned : mongrel2WsFrameCreate linuxHost (flag true)
      (UInt64.ofNat ([7] : Bytes).length) = .ok (0, 7, some [0, 0x81, 0, 0, 0, 0, 0]) := rfl
  have first {setters earlier later : List Setter}
      (split : .setPayload [7] :: setters = earlier ++ .setMask 5 :: later) :
      .setPayload [7] ∈ earlier := by
    cases earlier with
    | nil => cases split
    | cons setter earlier =>
        cases split
        exact List.mem_cons_self
  have order : BuildOrder true [7] 1 5 [.setPayload [7], .setMask 5, .setFin, .setOpcode 1] := by
    have swap (head tail : List Setter) : (head ++ tail).Perm (tail ++ head) :=
      List.perm_append_comm
    exact ⟨swap [.setPayload [7], .setMask 5] [.setFin, .setOpcode 1], fun _ _ => first⟩
  have order' : BuildOrder true [7] 1 5 [.setPayload [7], .setFin, .setMask 5, .setOpcode 1] := by
    refine ⟨?_, fun _ _ => first⟩
    exact ((List.Perm.swap _ _ _).cons _).trans order.each_once
  exact orders_agree linuxHost rfl true (by decide) returned order order'

end M2Handler.Websocket.Framing

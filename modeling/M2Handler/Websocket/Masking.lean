import M2Handler.Websocket.Layout

/-!
# Masking

`set_mask` on any buffer whose length is what its header declares: it masks the
payload as RFC 6455 does with the octets that it stores, and both `unmask` and a
second `set_mask` undo it.
-/

namespace M2Handler.Websocket.Framing

open Machine

variable (host : Host)

/-- A buffer whose mask bit can be read has two header bytes. -/
theorem header_of_maskPresent {len : Nat} {frame : Bytes} {bit : UInt8}
    (read : mongrel2WsFrameGetMaskPresent host len frame = .ok bit) :
    ∃ first second rest, frame = first :: second :: rest := by
  obtain ⟨_, _, read⟩ := Exec.bind_eq_ok.mp read
  obtain ⟨_, byte, _⟩ := Exec.bind_eq_ok.mp read
  match frame with
  | [] => cases byte
  | [_] => cases byte
  | first :: second :: rest => exact ⟨first, second, rest, rfl⟩

/-- The mask that the stored octets spell. -/
theorem stored_mask (mask : UInt32) :
    UInt32.ofNat (host.endian.value (host.endian.bytes 4 mask.toNat)) = mask := by
  rw [Endian.value_bytes host.endian mask.toNat_lt, UInt32.ofNat_toNat]

namespace Layout

variable (layout : Layout)

theorem getElem?_payload (i : Nat) :
    layout.bytes[layout.payloadStart + i]? = layout.payload[i]? := by
  rw [bytes_eq_payload, List.append_nil, ← length_before_payload, List.getElem?_append_right
    (Nat.le_add_right _ _), Nat.add_sub_cancel_left]

theorem drop_payloadStart : layout.bytes.drop layout.payloadStart = layout.payload := by
  rw [bytes_eq_payload, List.append_nil, ← length_before_payload, List.drop_left]

theorem take_maskStart :
    layout.bytes.take (2 + layout.extended.length) = layout.head ++ layout.extended := by
  have position : (layout.head ++ layout.extended).length = 2 + layout.extended.length := by
    simp only [head, List.length_append, List.length_cons, List.length_nil]
  rw [bytes_eq_mask, List.append_assoc, ← position, List.take_left]

theorem getElem?_maskField {i : Nat} (inside : i < layout.maskField.length) :
    layout.bytes[2 + layout.extended.length + i]? = layout.maskField[i]? := by
  have position : (layout.head ++ layout.extended).length = 2 + layout.extended.length := by
    simp only [head, List.length_append, List.length_cons, List.length_nil]
  rw [bytes_eq_mask, List.append_assoc, ← position, List.getElem?_append_right
    (Nat.le_add_right _ _), Nat.add_sub_cancel_left, List.getElem?_append_left inside]

end Layout

section Masked

variable {layout : Layout} (masked : maskBit layout.second = 1)
  (whole : (layout.declaredSize host).toNat = layout.payload.length)
  (fits : layout.payload.length ≤ 2147483647)
include masked

theorem length_maskField : layout.maskField.length = 4 := by
  rw [layout.mask_length, maskWidth, if_pos masked]

theorem payloadStart_masked : layout.payloadStart = 2 + layout.extended.length + 4 := by
  rw [Layout.payloadStart, length_maskField masked]

theorem five_lt_masked : 5 < layout.bytes.length := by
  rw [layout.length_bytes, payloadStart_masked masked]
  omega

include whole fits

/-- A whole frame is masked with the octets of the mask in turn. -/
theorem setMask_whole (mask : UInt32) :
    ∃ after : Layout, mongrel2WsFrameSetMask host layout.bytes.length layout.bytes mask =
        .ok (0, after.bytes) ∧ SameHeader layout after ∧ after.head = layout.head ∧
      after.maskField = host.endian.bytes 4 mask.toNat ∧
      after.payload = xorFrom after.maskField 0 layout.payload := by
  have same : (host.endian.bytes 4 mask.toNat).length = layout.maskField.length := by
    rw [length_maskField masked]
    simp
  have masking := Layout.setMask host layout mask masked (five_lt_masked masked)
    (le_of_eq whole) (by omega) same
  rw [xorPrefix_all _ whole] at masking
  exact ⟨_, masking, ⟨rfl, rfl, length_xorFrom _ _ _, rfl⟩, rfl, rfl, rfl⟩

end Masked

/-- A masked buffer of the length that its header declares is a whole frame. -/
theorem exists_whole {frame : Bytes} {start : Int} {size : UInt64}
    (present : mongrel2WsFrameGetMaskPresent host frame.length frame = .ok 1)
    (starts : mongrel2WsFrameGetPayloadStart host frame.length frame = .ok start)
    (declares : mongrel2WsFrameGetPayloadSize host frame.length frame = .ok size)
    (sized : (frame.length : Int) = start + size.toNat) :
    ∃ layout : Layout, layout.bytes = frame ∧ maskBit layout.second = 1 ∧
      start = layout.payloadStart ∧ layout.declaredSize host = size ∧
      layout.payload.length = size.toNat := by
  obtain ⟨first, second, rest, rfl⟩ := header_of_maskPresent host present
  have long : 1 < (first :: second :: rest).length := by simp
  rw [getMaskPresent_header host first second rest long] at present
  rw [getPayloadStart_header host first second rest long] at starts
  cases starts
  have room : (classOf second).extendedWidth + maskWidth second ≤ rest.length := by
    simp only [startOf, List.length_cons] at sized
    omega
  obtain ⟨layout, bytes, rfl, -⟩ := exists_layout first second room
  rw [← bytes] at long declares sized
  have size' := layout.getPayloadSize host long
  rw [declares] at size'
  cases size'
  rw [layout.length_bytes, layout.startOf_second] at sized
  exact ⟨layout, bytes, Except.ok.inj present, congrArg _ layout.startOf_second, rfl, by omega⟩

/-- Masking is that of RFC 6455, and it is undone by unmasking and by masking
again. -/
theorem masking_undone {frame : Bytes} {start : Int} {size : UInt64} (mask : UInt32)
    (present : mongrel2WsFrameGetMaskPresent host frame.length frame = .ok 1)
    (starts : mongrel2WsFrameGetPayloadStart host frame.length frame = .ok start)
    (declares : mongrel2WsFrameGetPayloadSize host frame.length frame = .ok size)
    (sized : (frame.length : Int) = start + size.toNat) (fits : size.toNat ≤ 2147483647) :
    ∃ maskStart masked, mongrel2WsFrameGetMaskStart host frame.length frame = .ok (maskStart : Nat) ∧
      start = (maskStart + 4 : Nat) ∧
      mongrel2WsFrameSetMask host frame.length frame mask = .ok (0, masked) ∧
      masked.length = frame.length ∧ masked.take maskStart = frame.take maskStart ∧
      mongrel2WsFrameGetMask host masked.length masked = .ok mask ∧
      (∀ i < size.toNat, ∃ old octet, frame[maskStart + 4 + i]? = some old ∧
        masked[maskStart + i % 4]? = some octet ∧
        masked[maskStart + 4 + i]? = some (old ^^^ octet)) ∧
      (∃ unmasked, mongrel2WsFrameUnmask host mask size.toNat masked start = .ok (0, unmasked) ∧
        unmasked.drop (maskStart + 4) = frame.drop (maskStart + 4)) ∧
      ∃ again, mongrel2WsFrameSetMask host masked.length masked mask = .ok (0, again) ∧
        again.drop (maskStart + 4) = frame.drop (maskStart + 4) := by
  obtain ⟨layout, rfl, bit, rfl, rfl, length⟩ := exists_whole host present starts declares sized
  rw [← length] at fits ⊢
  obtain ⟨after, masking, same, head, octets, payload⟩ :=
    setMask_whole host bit length.symm fits mask
  -- The masked frame is whole again.
  have bit' : maskBit after.second = 1 := by
    rw [same.second]
    exact bit
  have place := payloadStart_masked bit
  have place' := same.payloadStart.trans place
  have length' := same.payload_length
  have four := length_maskField bit'
  refine ⟨_, _, layout.getMaskStart host bit (le_of_lt (five_lt_masked bit)),
    congrArg _ place, masking, same.length_bytes, ?_, ?_, ?_, ?_, ?_⟩
  · have front := after.take_maskStart
    rw [head, same.extended] at front
    rw [front, layout.take_maskStart]
  · rw [Layout.getMask host after bit' (five_lt_masked bit'), octets, stored_mask]
  · intro i small
    have octet : i % 4 < after.maskField.length := by omega
    refine ⟨layout.payload[i], after.maskField[i % 4], ?_, ?_, ?_⟩
    · rw [← place, layout.getElem?_payload, List.getElem?_eq_getElem small]
    · rw [← same.extended, after.getElem?_maskField octet, List.getElem?_eq_getElem octet]
    · rw [← place', after.getElem?_payload, payload, getElem?_xorFrom,
        List.getElem?_eq_getElem small, Nat.zero_add, List.getD_eq_getElem?_getD,
        List.getElem?_eq_getElem octet]
      rfl
  · have unmasking := Layout.unmask host after mask (le_of_eq length'.symm) fits
    rw [← octets, xorPrefix_all _ length'.symm, payload, xorFrom_xorFrom, place', ← place]
      at unmasking
    refine ⟨_, unmasking, ?_⟩
    have restored := (after.withPayload layout.payload).drop_payloadStart
    have unmoved : (after.withPayload layout.payload).payloadStart = after.payloadStart := rfl
    rw [unmoved, place'] at restored
    rw [restored, ← place, layout.drop_payloadStart]
    rfl
  · have whole' : (after.declaredSize host).toNat = after.payload.length := by
      rw [same.declaredSize host, length', length]
    obtain ⟨again, masked, same', -, octets', payload'⟩ :=
      setMask_whole host bit' whole' (by omega) mask
    have place'' := same'.payloadStart.trans place'
    refine ⟨_, masked, ?_⟩
    rw [← place'', again.drop_payloadStart, payload', octets', payload, octets, xorFrom_xorFrom,
      place'', ← place, layout.drop_payloadStart]

/-- A masked text frame of two bytes. -/
theorem masking_undone_two :
    ∃ maskStart masked, mongrel2WsFrameGetMaskStart linuxHost 8 [0x81, 0x82, 0, 0, 0, 0, 72, 105] =
        .ok (maskStart : Nat) ∧
      mongrel2WsFrameSetMask linuxHost 8 [0x81, 0x82, 0, 0, 0, 0, 72, 105] 0x04030201 =
        .ok (0, masked) ∧
      mongrel2WsFrameGetMask linuxHost masked.length masked = .ok 0x04030201 := by
  have starts : mongrel2WsFrameGetPayloadStart linuxHost 8 [0x81, 0x82, 0, 0, 0, 0, 72, 105] =
      .ok 6 := rfl
  have declares : mongrel2WsFrameGetPayloadSize linuxHost 8 [0x81, 0x82, 0, 0, 0, 0, 72, 105] =
      .ok 2 := rfl
  obtain ⟨maskStart, masked, begins, -, masking, -, -, read, -⟩ :=
    masking_undone linuxHost 0x04030201 rfl starts declares rfl (by decide)
  exact ⟨maskStart, masked, begins, masking, read⟩

end M2Handler.Websocket.Framing

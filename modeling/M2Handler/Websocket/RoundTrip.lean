import M2Handler.Websocket.Creation

/-!
# Frame round trip

A frame is created, filled by the setters and read back by the accessors of the
same library.  The length class is chosen twice from the payload length and
read back from the second header byte; at `65536` the 16-bit extended length
holds zero.
-/

namespace M2Handler.Websocket.Framing

open Machine

variable (host : Host)

/-- `set_payload`, `set_opcode` and `set_fin`, in this order. -/
def fillUnmasked (size : Nat) (frame payload : Bytes) (opcode : UInt32) : Exec Bytes := do
  let (_, frame) ← mongrel2WsFrameSetPayload host size frame payload
  let (_, frame) ← mongrel2WsFrameSetOpcode host size frame opcode
  let (_, frame) ← mongrel2WsFrameSetFin host size frame
  return frame

def fill (useMask : Bool) (size : Nat) (frame payload : Bytes) (opcode mask : UInt32) :
    Exec Bytes := do
  let frame ← fillUnmasked host size frame payload opcode
  if useMask then
    let (_, frame) ← mongrel2WsFrameSetMask host size frame mask
    return frame
  else return frame

def payloadRead (useMask : Bool) (size : Nat) (frame : Bytes) (count : Nat) : Exec Bytes := do
  let (_, payloadSize, payloadStart) ← mongrel2WsFrameGetPayload host size frame
  if useMask then
    let mask ← mongrel2WsFrameGetMask host size frame
    let (_, frame) ← mongrel2WsFrameUnmask host mask payloadSize.toNat frame payloadStart
    readBlock frame payloadStart count
  else readBlock frame payloadStart count

/-- Everything the accessors say about a filled frame. -/
structure ReadsBack (useMask : Bool) (size : Nat) (frame payload : Bytes)
    (opcode : UInt32) : Prop where
  payloadSize :
    mongrel2WsFrameGetPayloadSize host size frame = .ok (UInt64.ofNat payload.length)
  payloadRange : ∃ payloadStart, mongrel2WsFrameGetPayload host size frame =
    .ok (0, UInt64.ofNat payload.length, payloadStart)
  payloadBytes : payloadRead host useMask size frame payload.length = .ok payload
  fin : mongrel2WsFrameGetFin host size frame = .ok 1
  opcodeBits : mongrel2WsFrameGetOpcode host size frame = .ok opcode.toUInt8
  maskPresent : mongrel2WsFrameGetMaskPresent host size frame =
    .ok (if useMask then 1 else 0)

/-- The extended length as this host reads it back. -/
theorem declaredSize_created (useMask : Bool) (size : Nat)
    (fits : size < 18446744073709551616) :
    ((created host useMask size).declaredSize host).toNat = if size = 65536 then 0 else size := by
  have kind := classOf_secondByte useMask size
  have code := secondByte_length useMask size
  have second : (created host useMask size).second = secondByte useMask size := rfl
  have extended : (created host useMask size).extended = lengthField host size := rfl
  rw [Layout.declaredSize, second, extended, kind, code]
  unfold sizeClass lengthCode lengthField
  by_cases small : size ≤ 125
  · simp only [if_pos small, if_neg (show ¬ size = 65536 by omega), UInt8.toNat_toUInt64,
      UInt8.toNat_ofNat']
    omega
  · by_cases medium : size ≤ 65536
    · have loaded (short : Nat) (bounded : short < 65536) :
          (htons host.endian (UInt16.ofNat
            (host.endian.value (networkBytes 2 short)))).toNat = short := by
        have network : networkValue (networkBytes 2 short) = short := by
          rw [networkValue, networkBytes, List.reverse_reverse, littleValue_littleBytes]
          omega
        have two : networkBytes 2 short = [UInt8.ofNat (short / 256), UInt8.ofNat short] :=
          rfl
        rw [two] at network ⊢
        rw [htons_load, network]
      simp only [if_neg small, if_pos medium, UInt16.toNat_toUInt64]
      rw [loaded _ (by omega)]
      split <;> omega
    · simp only [if_neg small, if_neg medium, if_neg (show ¬ size = 65536 by omega)]
      rw [Endian.value_bytes host.endian (by omega), UInt64.toNat_ofNat']
      omega

def firstByte (opcode : UInt32) : UInt8 := (0x0F &&& opcode).toUInt8 ||| 0x80

def filled (useMask : Bool) (payload : Bytes) (opcode : UInt32) : Layout :=
  ((created host useMask payload.length).withPayload payload).withFirst (firstByte opcode)

def finished (useMask : Bool) (payload : Bytes) (opcode mask : UInt32) : Layout :=
  if field : (host.endian.bytes 4 mask.toNat).length =
      (filled host useMask payload opcode).maskField.length then
    ((filled host useMask payload opcode).withMaskField _ field).withPayload
      (xorPrefix (host.endian.bytes 4 mask.toNat)
        ((created host useMask payload.length).declaredSize host).toNat payload)
  else filled host useMask payload opcode

theorem maskBit_filled (useMask : Bool) (payload : Bytes) (opcode : UInt32) :
    maskBit (filled host useMask payload opcode).second = if useMask then 1 else 0 :=
  maskBit_secondByte useMask payload.length

theorem maskField_filled (useMask : Bool) (payload : Bytes) (opcode : UInt32) :
    (filled host useMask payload opcode).maskField.length = if useMask then 4 else 0 := by
  change (List.replicate (maskWidth (secondByte useMask payload.length)) (0 : UInt8)).length = _
  rw [List.length_replicate, maskWidth_secondByte]

/-- Without a mask field there is nothing to mask. -/
theorem finished_unmasked (payload : Bytes) (opcode mask : UInt32) :
    finished host false payload opcode mask = filled host false payload opcode := by
  have noField : ¬ (host.endian.bytes 4 mask.toNat).length =
      (filled host false payload opcode).maskField.length := by
    rw [maskField_filled]
    simp
  exact dif_neg noField

theorem mask_fits (payload : Bytes) (opcode mask : UInt32) :
    (host.endian.bytes 4 mask.toNat).length =
      (filled host true payload opcode).maskField.length := by
  rw [maskField_filled]
  simp

theorem finished_masked (payload : Bytes) (opcode mask : UInt32) :
    finished host true payload opcode mask =
      ((filled host true payload opcode).withMaskField _
        (mask_fits host payload opcode mask)).withPayload
          (xorPrefix (host.endian.bytes 4 mask.toNat)
            ((created host true payload.length).declaredSize host).toNat payload) :=
  dif_pos (mask_fits host payload opcode mask)

theorem declaredSize_filled_le (useMask : Bool) (payload : Bytes)
    (fits : payload.length ≤ 2147483647) :
    ((created host useMask payload.length).declaredSize host).toNat ≤ payload.length := by
  rw [declaredSize_created host useMask _ (by omega)]
  split <;> omega

theorem fillUnmasked_created (useMask : Bool) {size : Nat} (payload : Bytes) (opcode : UInt32)
    (long : 1 < size) :
    fillUnmasked host size (created host useMask payload.length).bytes payload opcode =
      .ok (filled host useMask payload opcode).bytes := by
  have same : payload.length = (created host useMask payload.length).payload.length :=
    List.length_replicate.symm
  have header : (0 : UInt8) ||| (0x0F &&& opcode).toUInt8 ||| 0x80 = firstByte opcode := by
    rw [UInt8.zero_or]
    rfl
  have final : (((created host useMask payload.length).withPayload payload).withFirst
      (0 ||| (0x0F &&& opcode).toUInt8)).withFirst (0 ||| (0x0F &&& opcode).toUInt8 ||| 0x80) =
        filled host useMask payload opcode := by
    rw [header]
    rfl
  rw [fillUnmasked, Layout.setPayload host _ same long]
  simp only [Exec.ok_bind]
  rw [Layout.setOpcode host _ opcode (by omega)]
  simp only [Exec.ok_bind]
  rw [Layout.setFin host _ (by omega), ← final]
  rfl

/-- The setters run to the end and leave the finished buffer. -/
theorem fill_created (useMask : Bool) {size : Nat} (payload : Bytes) (opcode mask : UInt32)
    (fits : payload.length ≤ 2147483647)
    (sized : size = (created host useMask payload.length).payloadStart + payload.length) :
    fill host useMask size (created host useMask payload.length).bytes payload opcode mask =
      .ok (finished host useMask payload opcode mask).bytes := by
  have start := payloadStart_created host useMask payload.length
  rw [fill, fillUnmasked_created host useMask payload opcode (by omega), Exec.ok_bind]
  cases useMask with
  | false =>
      rw [if_neg (by simp), finished_unmasked]
      rfl
  | true =>
      have inside := declaredSize_filled_le host true payload fits
      have long : 5 < size := by
        rw [sized, start]
        simp only [if_true]
        omega
      have masking := Layout.setMask host (filled host true payload opcode) mask
        (maskBit_filled host true payload opcode) long inside (Nat.le_trans inside fits)
        (mask_fits host payload opcode mask)
      rw [if_pos rfl, masking, finished_masked]
      rfl

/-! ## Reading the finished buffer -/

theorem first_finished (useMask : Bool) (payload : Bytes) (opcode mask : UInt32) :
    (finished host useMask payload opcode mask).first = firstByte opcode := by
  unfold finished
  split <;> rfl

theorem second_finished (useMask : Bool) (payload : Bytes) (opcode mask : UInt32) :
    (finished host useMask payload opcode mask).second =
      secondByte useMask payload.length := by
  unfold finished
  split <;> rfl

theorem declaredSize_finished (useMask : Bool) (payload : Bytes) (opcode mask : UInt32) :
    (finished host useMask payload opcode mask).declaredSize host =
      (created host useMask payload.length).declaredSize host := by
  unfold finished
  split <;> rfl

theorem length_payload_finished (useMask : Bool) (payload : Bytes) (opcode mask : UInt32) :
    (finished host useMask payload opcode mask).payload.length = payload.length := by
  unfold finished
  split
  · exact length_xorPrefix _ _ _
  · rfl

/-- The header bits that the setters write are the bits that the getters read. -/
theorem firstByte_bits (opcode : UInt32) (fourBits : opcode < 16) :
    (firstByte opcode &&& 0x80) >>> 7 = 1 ∧ firstByte opcode &&& 0x0F = opcode.toUInt8 := by
  have low : (0x0F &&& opcode).toUInt8 = opcode.toUInt8 := by
    apply UInt8.toNat_inj.mp
    have bounded : opcode.toNat < 16 := UInt32.lt_iff_toNat_lt.mp fourBits
    have masked : 15 &&& opcode.toNat = opcode.toNat := by
      rw [Nat.and_comm]
      exact Nat.and_two_pow_sub_one_of_lt_two_pow (show opcode.toNat < 2 ^ 4 by omega)
    rw [UInt32.toNat_toUInt8, UInt32.toNat_and, UInt32.toNat_toUInt8]
    exact congrArg (· % 2 ^ 8) masked
  have small : opcode.toUInt8 < 16 := by
    apply UInt8.lt_iff_toNat_lt.mpr
    have bounded : opcode.toNat < 16 := UInt32.lt_iff_toNat_lt.mp fourBits
    rw [UInt32.toNat_toUInt8]
    exact Nat.lt_of_le_of_lt (Nat.mod_le _ _) bounded
  have every : ∀ byte : UInt8, byte < 16 →
      ((byte ||| 0x80) &&& 0x80) >>> 7 = 1 ∧ (byte ||| 0x80) &&& 0x0F = byte := by
    apply forall_byte
    decide +kernel
  rw [firstByte, low]
  exact every _ small

/-- The payload range holds the payload, behind the mask if there is one. -/
theorem payloadRead_finished (useMask : Bool) {size : Nat} (payload : Bytes)
    (opcode mask : UInt32) (fits : payload.length ≤ 2147483647)
    (sized : size = (created host useMask payload.length).payloadStart + payload.length) :
    payloadRead host useMask size (finished host useMask payload opcode mask).bytes
      payload.length = .ok payload := by
  have start := payloadStart_created host useMask payload.length
  have inside := declaredSize_filled_le host useMask payload fits
  rw [payloadRead, Layout.getPayload host _ (by omega)]
  simp only [Exec.ok_bind]
  cases useMask with
  | false =>
      rw [if_neg (by simp), finished_unmasked]
      exact (filled host false payload opcode).read_payload
  | true =>
      have masked : maskBit (finished host true payload opcode mask).second = 1 := by
        rw [second_finished, maskBit_secondByte, if_pos rfl]
      have octets : (finished host true payload opcode mask).maskField =
          host.endian.bytes 4 mask.toNat := by
        rw [finished_masked]
        rfl
      have value : UInt32.ofNat (host.endian.value
          (finished host true payload opcode mask).maskField) = mask := by
        rw [octets, Endian.value_bytes host.endian mask.toNat_lt, UInt32.ofNat_toNat]
      have restored : xorPrefix (host.endian.bytes 4 mask.toNat)
          ((created host true payload.length).declaredSize host).toNat
          (finished host true payload opcode mask).payload = payload := by
        rw [finished_masked]
        exact xorPrefix_xorPrefix _ inside
      rw [if_pos rfl, Layout.getMask host _ masked
        (by rw [sized, start]; simp only [if_true]; omega)]
      simp only [Exec.ok_bind]
      rw [value, declaredSize_finished, Layout.unmask host _ mask
        (by rw [length_payload_finished]; exact inside) (Nat.le_trans inside fits)]
      simp only [Exec.ok_bind]
      rw [restored]
      exact ((finished host true payload opcode mask).withPayload payload).read_payload

/-- A frame built by the setters reads back as it was built exactly when its
payload is not 65536 bytes long. -/
theorem readsBack_iff_length_ne (ndebug : host.ndebug = true) (useMask : Bool) (payload : Bytes)
    (opcode mask : UInt32) (fits : payload.length ≤ 2147483647) (fourBits : opcode < 16)
    {size : UInt64} {buffer : Bytes}
    (returned : mongrel2WsFrameCreate host (flag useMask) (UInt64.ofNat payload.length) =
      .ok (0, size, some buffer)) :
    (∃ frame, fill host useMask size.toNat buffer payload opcode mask = .ok frame ∧
      ReadsBack host useMask size.toNat frame payload opcode) ↔ payload.length ≠ 65536 := by
  have length := toNat_ofNat fits
  obtain ⟨bufferEq, sized⟩ := create_inv host useMask fits ndebug returned
  have start := payloadStart_created host useMask payload.length
  rw [frameLength, ← start] at sized
  have declared := declaredSize_created host useMask payload.length (by omega)
  have filling := fill_created host useMask payload opcode mask fits sized
  rw [← bufferEq] at filling
  have readSize := Layout.getPayloadSize host (finished host useMask payload opcode mask)
    (show 1 < size.toNat by omega)
  rw [declaredSize_finished] at readSize
  constructor
  · rintro ⟨frame, frameEq, back⟩ exceptional
    rw [filling] at frameEq
    cases frameEq
    have same := back.payloadSize
    rw [readSize] at same
    have numbers := congrArg UInt64.toNat (Except.ok.inj same)
    rw [declared, if_pos exceptional, length] at numbers
    omega
  · intro ordinary
    have exact : (created host useMask payload.length).declaredSize host =
        UInt64.ofNat payload.length := by
      apply UInt64.toNat_inj.mp
      rw [declared, if_neg ordinary, length]
    obtain ⟨finBit, opcodeBits⟩ := firstByte_bits opcode fourBits
    refine ⟨_, filling, ?_, ⟨(finished host useMask payload opcode mask).payloadStart, ?_⟩,
      ?_, ?_, ?_, ?_⟩
    · rw [readSize, exact]
    · rw [Layout.getPayload host _ (by omega), declaredSize_finished, exact]
    · exact payloadRead_finished host useMask payload opcode mask fits sized
    · rw [Layout.getFin host _ (by omega), first_finished, finBit]
    · rw [Layout.getOpcode host _ (by omega), first_finished, opcodeBits]
    · rw [Layout.getMaskPresent host _ (by omega), second_finished, maskBit_secondByte]

/-- A masked frame of three bytes reads back. -/
theorem readsBack_three :
    ∃ frame, fill linuxHost true 9 [0, 0x83, 0, 0, 0, 0, 0, 0, 0] [1, 2, 3] 2 0x11223344 =
        .ok frame ∧
      ReadsBack linuxHost true 9 frame [1, 2, 3] 2 := by
  have returned : mongrel2WsFrameCreate linuxHost (flag true) (UInt64.ofNat 3) =
      .ok (0, 9, some [0, 0x83, 0, 0, 0, 0, 0, 0, 0]) :=
    rfl
  exact (readsBack_iff_length_ne linuxHost rfl true [1, 2, 3] 2 0x11223344 (by decide)
    (by decide) returned).mpr (by decide)

/-- A frame of 65536 bytes declares an empty payload. -/
theorem reads_zero_at_65536 :
    ∃ size buffer frame,
      mongrel2WsFrameCreate linuxHost (flag false)
          (UInt64.ofNat (List.replicate 65536 (0 : UInt8)).length) = .ok (0, size, some buffer) ∧
        fill linuxHost false size.toNat buffer (List.replicate 65536 0) 1 0 = .ok frame ∧
        mongrel2WsFrameGetPayloadSize linuxHost size.toNat frame = .ok 0 ∧
        ¬ ReadsBack linuxHost false size.toNat frame (List.replicate 65536 0) 1 := by
  have count : (List.replicate 65536 (0 : UInt8)).length = 65536 := List.length_replicate
  have length : (UInt64.ofNat 65536).toNat = 65536 := by decide
  have sized := sizeNecessary_toNat linuxHost false (UInt64.ofNat 65536) (by decide)
  have returned := create_eq linuxHost false (UInt64.ofNat 65536) (by decide)
    (.inl rfl) rfl
  rw [length] at sized returned
  have sameSize : (mongrel2WsFrameGetSizeNecessary (flag false) (UInt64.ofNat 65536)).toNat =
      (created linuxHost false (List.replicate 65536 (0 : UInt8)).length).payloadStart +
        (List.replicate 65536 (0 : UInt8)).length := by
    rw [count]
    exact sized
  have filling := fill_created linuxHost false (List.replicate 65536 0) 1 0
    (by rw [count]; decide) sameSize
  have declared := declaredSize_created linuxHost false 65536 (by decide)
  have zero : (created linuxHost false 65536).declaredSize linuxHost = 0 := by
    apply UInt64.toNat_inj.mp
    rw [declared]
    rfl
  have long : 1 < (mongrel2WsFrameGetSizeNecessary (flag false) (UInt64.ofNat 65536)).toNat := by
    decide
  have read := Layout.getPayloadSize linuxHost
    (finished linuxHost false (List.replicate 65536 0) 1 0) long
  rw [declaredSize_finished, count, zero] at read
  rw [count] at filling
  refine ⟨_, _, _, by rw [count]; exact returned, filling, read, ?_⟩
  intro back
  have same := back.payloadSize
  rw [read, count] at same
  cases same

end M2Handler.Websocket.Framing

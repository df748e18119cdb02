import M2Handler.Websocket.Framing

/-!
# The layout of a frame buffer

A frame buffer is two header bytes, the extended length, the mask field and the
payload.  The second header byte fixes the widths of the two middle parts; a
layout carries that agreement, and every accessor is evaluated once on it.
-/

namespace M2Handler.Websocket.Framing

open Machine

/-- The class that `get_payload_type` reads off the second byte. -/
def classOf (second : UInt8) : FType :=
  if second &&& 0x7F ≤ 125 then .small
  else if second &&& 0x7F = 126 then .medium
  else if second &&& 0x7F = 127 then .large
  else .invalid

def FType.extendedWidth : FType → Nat
  | .small => 0
  | .medium => 2
  | .large => 8
  | .invalid => 0

def maskBit (second : UInt8) : UInt8 := (second &&& maskFlag) >>> 7

def maskWidth (second : UInt8) : Nat := if maskBit second = 1 then 4 else 0

/-- The parts of a frame buffer, in order. -/
structure Layout where
  first : UInt8
  second : UInt8
  extended : Bytes
  maskField : Bytes
  payload : Bytes
  extended_length : extended.length = (classOf second).extendedWidth
  mask_length : maskField.length = maskWidth second

theorem classOf_ne_invalid (second : UInt8) : classOf second ≠ .invalid := by
  revert second
  apply forall_byte
  decide +kernel

theorem maskBit_cases (second : UInt8) : maskBit second = 0 ∨ maskBit second = 1 := by
  revert second
  apply forall_byte
  decide +kernel

/-! ## The header bytes -/

def startOf (second : UInt8) : Nat := 2 + (classOf second).extendedWidth + maskWidth second

section Header

variable (host : Host) {len : Nat} (first second : UInt8) (rest : Bytes)

theorem getPayloadType_header (long : 1 < len) :
    mongrel2WsFrameGetPayloadType host len (first :: second :: rest) = .ok (classOf second) := by
  have byte : readByte (first :: second :: rest) 1 = .ok second := rfl
  simp only [mongrel2WsFrameGetPayloadType, byte, long, decide_true, cassert_true,
    Exec.ok_bind, Exec.pure_eq_ok, classOf]
  split
  · rfl
  · split
    · rfl
    · split <;> rfl

theorem getMaskPresent_header (long : 1 < len) :
    mongrel2WsFrameGetMaskPresent host len (first :: second :: rest) = .ok (maskBit second) := by
  have byte : readByte (first :: second :: rest) 1 = .ok second := rfl
  simp [mongrel2WsFrameGetMaskPresent, byte, long, maskBit]

theorem getPayloadStart_header (long : 1 < len) :
    mongrel2WsFrameGetPayloadStart host len (first :: second :: rest) =
      .ok (startOf second : Int) := by
  rw [mongrel2WsFrameGetPayloadStart, getPayloadType_header host first second rest long,
    Exec.ok_bind, getMaskPresent_header host first second rest long, Exec.ok_bind, startOf,
    maskWidth]
  cases kind : classOf second with
  | invalid => exact absurd kind (classOf_ne_invalid _)
  | small | medium | large =>
      rcases maskBit_cases second with unmasked | masked
      · rw [unmasked]
        rfl
      · rw [masked]
        rfl

theorem getMaskStart_header (masked : maskBit second = 1) (long : 5 ≤ len) :
    mongrel2WsFrameGetMaskStart host len (first :: second :: rest) =
      .ok ((2 + (classOf second).extendedWidth : Nat) : Int) := by
  rw [mongrel2WsFrameGetMaskStart, if_neg (by omega),
    getMaskPresent_header host first second rest (by omega), Exec.ok_bind,
    if_neg (by simp [masked]), getPayloadType_header host first second rest (by omega),
    Exec.ok_bind]
  cases kind : classOf second with
  | small => simp [FType.extendedWidth]
  | medium => simp [FType.extendedWidth]
  | large => simp [FType.extendedWidth]
  | invalid => exact absurd kind (classOf_ne_invalid _)

/-- Without the mask bit there is no mask. -/
theorem getMaskStart_unmasked (unmasked : maskBit second = 0) (long : 5 ≤ len) :
    mongrel2WsFrameGetMaskStart host len (first :: second :: rest) = .ok (-3) := by
  rw [mongrel2WsFrameGetMaskStart, if_neg (by omega),
    getMaskPresent_header host first second rest (by omega), Exec.ok_bind, unmasked]
  rfl

end Header

namespace Layout

variable (host : Host) (layout : Layout)

def bytes : Bytes :=
  layout.first :: layout.second :: (layout.extended ++ layout.maskField ++ layout.payload)

def payloadStart : Nat := 2 + layout.extended.length + layout.maskField.length

/-- The payload length that the header declares to this host. -/
def declaredSize : UInt64 :=
  match classOf layout.second with
  | .small => (layout.second &&& 0x7F).toUInt64
  | .medium => (htons host.endian (UInt16.ofNat (host.endian.value layout.extended))).toUInt64
  | .large => UInt64.ofNat (host.endian.value layout.extended)
  | .invalid => 0

def head : Bytes := [layout.first, layout.second]

theorem length_bytes : layout.bytes.length = layout.payloadStart + layout.payload.length := by
  simp only [bytes, payloadStart, List.length_cons, List.length_append]
  omega

theorem bytes_eq_extended :
    layout.bytes = layout.head ++ layout.extended ++ (layout.maskField ++ layout.payload) := by
  simp [bytes, head]

theorem bytes_eq_mask :
    layout.bytes = (layout.head ++ layout.extended) ++ layout.maskField ++ layout.payload := by
  simp [bytes, head]

theorem bytes_eq_payload :
    layout.bytes =
      (layout.head ++ layout.extended ++ layout.maskField) ++ layout.payload ++ [] := by
  simp [bytes, head]

theorem length_before_payload :
    (layout.head ++ layout.extended ++ layout.maskField).length = layout.payloadStart := by
  simp only [head, payloadStart, List.length_append, List.length_cons, List.length_nil]

theorem readByte_zero : readByte layout.bytes 0 = .ok layout.first :=
  rfl

theorem readByte_one : readByte layout.bytes 1 = .ok layout.second :=
  rfl

theorem read_extended :
    readBlock layout.bytes 2 layout.extended.length = .ok layout.extended := by
  rw [bytes_eq_extended]
  exact readBlock_append layout.head layout.extended _

theorem read_payload :
    readBlock layout.bytes layout.payloadStart layout.payload.length = .ok layout.payload := by
  rw [bytes_eq_payload, ← length_before_payload]
  exact readBlock_append _ layout.payload _

/-! ## Replacing one part -/

def withFirst (byte : UInt8) : Layout := { layout with first := byte }

def withPayload (data : Bytes) : Layout := { layout with payload := data }

def withMaskField (octets : Bytes) (same : octets.length = layout.maskField.length) : Layout :=
  { layout with maskField := octets, mask_length := same.trans layout.mask_length }

theorem or_first (bits : UInt8) :
    orByte layout.bytes 0 bits = .ok (layout.withFirst (layout.first ||| bits)).bytes :=
  orByte_append [] _ layout.first bits

theorem write_payload {data : Bytes} (same : data.length = layout.payload.length) :
    writeBlock layout.bytes layout.payloadStart data = .ok (layout.withPayload data).bytes := by
  rw [bytes_eq_payload layout, ← length_before_payload,
    writeBlock_append _ layout.payload _ data same, bytes_eq_payload (layout.withPayload data)]
  rfl

theorem write_mask {octets : Bytes} (same : octets.length = layout.maskField.length) :
    writeBlock layout.bytes (2 + layout.extended.length : Nat) octets =
      .ok (layout.withMaskField octets same).bytes := by
  have position : (layout.head ++ layout.extended).length = 2 + layout.extended.length := by
    simp only [head, List.length_append, List.length_cons, List.length_nil]
  rw [bytes_eq_mask layout, ← position, writeBlock_append _ layout.maskField _ octets same,
    bytes_eq_mask (layout.withMaskField octets same)]
  rfl

/-- The xor loop over the first `count` bytes of the payload. -/
theorem xor_payload {mask : Bytes} (octets : mask.length = 4) {count : Nat}
    (inside : count ≤ layout.payload.length) (fits : count ≤ 2147483647) :
    xorLoop mask layout.payloadStart count 0 layout.bytes =
      .ok (layout.withPayload (xorPrefix mask count layout.payload)).bytes := by
  have taken : (layout.payload.take count).length = count := by
    rw [List.length_take]
    omega
  have split : layout.bytes =
      (layout.head ++ layout.extended ++ layout.maskField) ++ layout.payload.take count ++
        layout.payload.drop count := by
    rw [List.append_assoc _ (layout.payload.take count), List.take_append_drop,
      bytes_eq_payload, List.append_nil]
  have masked := xorLoop_append octets layout.payloadStart
    (layout.head ++ layout.extended ++ layout.maskField) (layout.payload.take count)
    (layout.payload.drop count) 0 (by rw [length_before_payload]; simp) (by omega)
  rw [taken, ← split] at masked
  rw [masked, bytes_eq_payload (layout.withPayload _)]
  simp [withPayload, head, xorPrefix]

/-! ## The accessors -/

variable {len : Nat}

theorem getFin (long : 0 < len) :
    mongrel2WsFrameGetFin host len layout.bytes = .ok ((layout.first &&& 0x80) >>> 7) := by
  simp [mongrel2WsFrameGetFin, frameFlag, readByte_zero, long]

theorem getOpcode (long : 0 < len) :
    mongrel2WsFrameGetOpcode host len layout.bytes = .ok (layout.first &&& 0x0F) := by
  simp [mongrel2WsFrameGetOpcode, readByte_zero, long]

theorem setFin (long : 0 < len) :
    mongrel2WsFrameSetFin host len layout.bytes =
      .ok (0, (layout.withFirst (layout.first ||| 0x80)).bytes) := by
  have flag : ((0x01 : UInt8) <<< 7) = 0x80 := by decide
  simp [mongrel2WsFrameSetFin, or_first, long, flag]

theorem setOpcode (opcode : UInt32) (long : 0 < len) :
    mongrel2WsFrameSetOpcode host len layout.bytes opcode =
      .ok (0, (layout.withFirst (layout.first ||| (0x0F &&& opcode).toUInt8)).bytes) := by
  simp [mongrel2WsFrameSetOpcode, or_first, long]

theorem getPayloadType (long : 1 < len) :
    mongrel2WsFrameGetPayloadType host len layout.bytes = .ok (classOf layout.second) :=
  getPayloadType_header host _ _ _ long

theorem getMaskPresent (long : 1 < len) :
    mongrel2WsFrameGetMaskPresent host len layout.bytes = .ok (maskBit layout.second) :=
  getMaskPresent_header host _ _ _ long

theorem startOf_second : startOf layout.second = layout.payloadStart := by
  rw [startOf, payloadStart, layout.extended_length, layout.mask_length]

theorem getPayloadSize (long : 1 < len) :
    mongrel2WsFrameGetPayloadSize host len layout.bytes = .ok (layout.declaredSize host) := by
  have width := layout.extended_length
  have extended := layout.read_extended
  rw [mongrel2WsFrameGetPayloadSize, getPayloadType host layout long, Exec.ok_bind]
  cases kind : classOf layout.second with
  | small => simp [readByte_one, declaredSize, kind]
  | medium =>
      rw [width, kind] at extended
      simp only [FType.extendedWidth] at extended
      simp [extended, declaredSize, kind]
  | large =>
      rw [width, kind] at extended
      simp only [FType.extendedWidth] at extended
      simp [extended, declaredSize, kind]
  | invalid => exact absurd kind (classOf_ne_invalid _)

theorem getPayloadStart (long : 1 < len) :
    mongrel2WsFrameGetPayloadStart host len layout.bytes = .ok (layout.payloadStart : Int) := by
  rw [← startOf_second]
  exact getPayloadStart_header host _ _ _ long

theorem setPayload {data : Bytes} (same : data.length = layout.payload.length) (long : 1 < len) :
    mongrel2WsFrameSetPayload host len layout.bytes data =
      .ok (0, (layout.withPayload data).bytes) := by
  rw [mongrel2WsFrameSetPayload, getPayloadStart host layout long, Exec.ok_bind,
    write_payload layout same]
  rfl

theorem getPayload (long : 1 < len) :
    mongrel2WsFrameGetPayload host len layout.bytes =
      .ok (0, layout.declaredSize host, (layout.payloadStart : Int)) := by
  rw [mongrel2WsFrameGetPayload, getPayloadStart host layout long, Exec.ok_bind,
    getPayloadSize host layout long]
  rfl

theorem getMaskStart (masked : maskBit layout.second = 1) (long : 5 ≤ len) :
    mongrel2WsFrameGetMaskStart host len layout.bytes =
      .ok ((2 + layout.extended.length : Nat) : Int) := by
  rw [layout.extended_length]
  exact getMaskStart_header host _ _ _ masked long

theorem getMask (masked : maskBit layout.second = 1) (long : 5 < len) :
    mongrel2WsFrameGetMask host len layout.bytes =
      .ok (UInt32.ofNat (host.endian.value layout.maskField)) := by
  have field := layout.mask_length
  have position : (layout.head ++ layout.extended).length = 2 + layout.extended.length := by
    simp only [head, List.length_append, List.length_cons, List.length_nil]
  have stored := readBlock_append (layout.head ++ layout.extended) layout.maskField layout.payload
  rw [← bytes_eq_mask, position, field, maskWidth, if_pos masked] at stored
  rw [mongrel2WsFrameGetMask, getMaskStart host layout masked (by omega)]
  simp only [long, decide_true, cassert_true, Exec.ok_bind, stored, Exec.pure_eq_ok]

/-- Masking writes the four octets of the mask as the host stores them, then runs
the loop over the declared payload. -/
theorem setMask_loop (mask : UInt32) (masked : maskBit layout.second = 1) (long : 5 < len)
    (same : (host.endian.bytes 4 mask.toNat).length = layout.maskField.length) :
    mongrel2WsFrameSetMask host len layout.bytes mask =
      (xorLoop (host.endian.bytes 4 mask.toNat) layout.payloadStart
        (toInt (layout.declaredSize host).toNat).toNat 0
        (layout.withMaskField (host.endian.bytes 4 mask.toNat) same).bytes >>= fun frame =>
          .ok (0, frame)) := by
  have notNegative : ¬ ((2 + layout.extended.length : Nat) : Int) < 0 := by omega
  have start : (layout.withMaskField _ same).payloadStart = layout.payloadStart := by
    rw [← startOf_second, ← startOf_second]
    rfl
  have unchanged : (layout.withMaskField _ same).declaredSize host = layout.declaredSize host :=
    rfl
  rw [mongrel2WsFrameSetMask, getMaskStart host layout masked (by omega)]
  simp only [long, decide_true, cassert_true, Exec.ok_bind, if_neg notNegative,
    write_mask layout same]
  rw [getPayloadStart host (layout.withMaskField _ same) (by omega), Exec.ok_bind,
    getPayloadSize host (layout.withMaskField _ same) (by omega), Exec.ok_bind, unchanged, start]
  rfl

/-- Masking xors as many payload bytes as the header declares. -/
theorem setMask (mask : UInt32) (masked : maskBit layout.second = 1) (long : 5 < len)
    (inside : (layout.declaredSize host).toNat ≤ layout.payload.length)
    (fits : (layout.declaredSize host).toNat ≤ 2147483647)
    (same : (host.endian.bytes 4 mask.toNat).length = layout.maskField.length) :
    mongrel2WsFrameSetMask host len layout.bytes mask =
      .ok (0, ((layout.withMaskField (host.endian.bytes 4 mask.toNat) same).withPayload
        (xorPrefix (host.endian.bytes 4 mask.toNat) (layout.declaredSize host).toNat
          layout.payload)).bytes) := by
  have octets : (host.endian.bytes 4 mask.toNat).length = 4 := by simp
  have size : (toInt ((layout.declaredSize host).toNat : Int)).toNat =
      (layout.declaredSize host).toNat := by
    rw [toInt_of_nat fits]
    exact Int.toNat_natCast _
  have start : (layout.withMaskField _ same).payloadStart = layout.payloadStart := by
    rw [← startOf_second, ← startOf_second]
    rfl
  have loop := xor_payload (layout.withMaskField _ same) octets inside fits
  rw [start] at loop
  rw [setMask_loop host layout mask masked long same, size, loop]
  rfl

/-- A frame without the mask bit refuses a mask. -/
theorem setMask_unmasked (mask : UInt32) (unmasked : maskBit layout.second = 0)
    (asserted : host.ndebug = true ∨ 5 < len) (long : 1 < len) :
    mongrel2WsFrameSetMask host len layout.bytes mask = .ok (-1, layout.bytes) := by
  have passed : cassert host.ndebug (decide (5 < len)) = .ok () := by
    rcases asserted with ndebug | large
    · rw [ndebug, cassert_ndebug]
    · simp [large]
  have refused : ∃ code : Int, code < 0 ∧
      mongrel2WsFrameGetMaskStart host len layout.bytes = .ok code := by
    unfold mongrel2WsFrameGetMaskStart
    split
    · exact ⟨-2, by decide, rfl⟩
    · refine ⟨-3, by decide, ?_⟩
      rw [getMaskPresent host layout long, Exec.ok_bind, unmasked]
      rfl
  obtain ⟨code, negative, start⟩ := refused
  rw [mongrel2WsFrameSetMask, passed, Exec.ok_bind, start, Exec.ok_bind, if_pos negative]
  rfl

/-- Unmasking bytes that the payload holds. -/
theorem unmask (mask : UInt32) {size : Nat} (inside : size ≤ layout.payload.length)
    (fits : size ≤ 2147483647) :
    mongrel2WsFrameUnmask host mask size layout.bytes layout.payloadStart =
      .ok (0, (layout.withPayload
        (xorPrefix (host.endian.bytes 4 mask.toNat) size layout.payload)).bytes) := by
  rw [mongrel2WsFrameUnmask, xor_payload layout (by simp) inside fits]
  rfl

end Layout

/-- A buffer with room for the extended length and the mask has a layout. -/
theorem exists_layout (first second : UInt8) {rest : Bytes}
    (room : (classOf second).extendedWidth + maskWidth second ≤ rest.length) :
    ∃ layout : Layout, layout.bytes = first :: second :: rest ∧ layout.second = second ∧
      layout.extended = rest.take (classOf second).extendedWidth := by
  refine ⟨⟨first, second, rest.take (classOf second).extendedWidth,
    (rest.drop (classOf second).extendedWidth).take (maskWidth second),
    (rest.drop (classOf second).extendedWidth).drop (maskWidth second), ?_, ?_⟩, ?_, rfl, rfl⟩
  · rw [List.length_take]
    omega
  · rw [List.length_take, List.length_drop]
    omega
  · rw [Layout.bytes, List.append_assoc, List.take_append_drop, List.take_append_drop]

/-! ## Layouts with one header -/

/-- Two layouts with one header up to the four opcode bits and the first bit. -/
structure SameHeader (before after : Layout) : Prop where
  second : after.second = before.second
  extended : after.extended = before.extended
  payload_length : after.payload.length = before.payload.length
  reserved : after.first &&& 0x70 = before.first &&& 0x70

namespace SameHeader

variable (host : Host) {before after : Layout}

theorem payloadStart (same : SameHeader before after) :
    after.payloadStart = before.payloadStart := by
  rw [← after.startOf_second, ← before.startOf_second, same.second]

theorem length_bytes (same : SameHeader before after) :
    after.bytes.length = before.bytes.length := by
  rw [after.length_bytes, before.length_bytes, same.payloadStart, same.payload_length]

theorem declaredSize (same : SameHeader before after) :
    after.declaredSize host = before.declaredSize host := by
  rw [Layout.declaredSize, Layout.declaredSize, same.second, same.extended]

theorem trans {last : Layout} (same : SameHeader before after) (next : SameHeader after last) :
    SameHeader before last where
  second := next.second.trans same.second
  extended := next.extended.trans same.extended
  payload_length := next.payload_length.trans same.payload_length
  reserved := next.reserved.trans same.reserved

end SameHeader

end M2Handler.Websocket.Framing

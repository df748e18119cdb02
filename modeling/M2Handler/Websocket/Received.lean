import M2Handler.Websocket.Layout

/-!
# Received buffers

The accessors on a buffer of any bytes and of any length from two on.  None of
them compares an index with the length of the buffer, so each stays inside
exactly when the header byte at index 1 and the extended length happen to fit.
-/

namespace M2Handler.Websocket.Framing

open Machine

variable (host : Host)

/-- The payload length that this second byte and extended length declare. -/
def declaredOf (second : UInt8) (extended : Bytes) : UInt64 :=
  match classOf second with
  | .small => (second &&& 0x7F).toUInt64
  | .medium => (htons host.endian (UInt16.ofNat (host.endian.value extended))).toUInt64
  | .large => UInt64.ofNat (host.endian.value extended)
  | .invalid => 0

theorem Layout.declaredSize_eq (layout : Layout) :
    layout.declaredSize host = declaredOf host layout.second layout.extended :=
  rfl

section Header

variable {len : Nat} (first second : UInt8) {rest : Bytes} (long : 1 < len)
include long

theorem getPayloadSize_inside (inside : (classOf second).extendedWidth ≤ rest.length) :
    mongrel2WsFrameGetPayloadSize host len (first :: second :: rest) =
      .ok (declaredOf host second (rest.take (classOf second).extendedWidth)) := by
  have byte : readByte (first :: second :: rest) 1 = .ok second := rfl
  have behind {count : Nat} (positive : 0 < count) (enough : count ≤ rest.length) :
      readBlock (first :: second :: rest) 2 count = .ok (rest.take count) := by
    have read := readBlock_at (first :: second :: rest) 2 positive
    rw [if_pos (by simp only [List.length_cons]; omega)] at read
    exact read
  rw [mongrel2WsFrameGetPayloadSize, getPayloadType_header host first second rest long,
    Exec.ok_bind, declaredOf]
  cases kind : classOf second with
  | small => simp [byte]
  | medium =>
      rw [kind] at inside
      simp only [behind (by decide : 0 < 2) inside, Exec.ok_bind, Exec.pure_eq_ok,
        FType.extendedWidth]
  | large =>
      rw [kind] at inside
      simp only [behind (by decide : 0 < 8) inside, Exec.ok_bind, Exec.pure_eq_ok,
        FType.extendedWidth]
  | invalid => exact absurd kind (classOf_ne_invalid _)

theorem getPayloadSize_outside (outside : rest.length < (classOf second).extendedWidth) :
    mongrel2WsFrameGetPayloadSize host len (first :: second :: rest) = .error .outOfBounds := by
  have behind {count : Nat} (positive : 0 < count) (short : rest.length < count) :
      readBlock (first :: second :: rest) 2 count = .error .outOfBounds := by
    have read := readBlock_at (first :: second :: rest) 2 positive
    rw [if_neg (by simp only [List.length_cons]; omega)] at read
    exact read
  rw [mongrel2WsFrameGetPayloadSize, getPayloadType_header host first second rest long,
    Exec.ok_bind]
  cases kind : classOf second with
  | small =>
      rw [kind] at outside
      exact absurd outside (Nat.not_lt_zero _)
  | medium =>
      rw [kind] at outside
      have short : rest.length < 2 := outside
      dsimp only
      rw [behind (by decide) short]
      rfl
  | large =>
      rw [kind] at outside
      have short : rest.length < 8 := outside
      dsimp only
      rw [behind (by decide) short]
      rfl
  | invalid => exact absurd kind (classOf_ne_invalid _)

end Header

/-! ## Each accessor -/

section Accessors

variable (first second : UInt8) (rest : Bytes)

/-- The payload length is read inside the buffer exactly when the extended length
is there. -/
theorem getPayloadSize_returns_iff :
    (∃ size, mongrel2WsFrameGetPayloadSize host (first :: second :: rest).length
      (first :: second :: rest) = .ok size) ↔ (classOf second).extendedWidth ≤ rest.length := by
  have long : 1 < (first :: second :: rest).length := by simp
  constructor
  · rintro ⟨size, read⟩
    by_contra outside
    rw [getPayloadSize_outside host first second long (by omega)] at read
    cases read
  · exact fun inside => ⟨_, getPayloadSize_inside host first second long inside⟩

/-- The payload range is inside the buffer exactly when the declared length is. -/
theorem getPayload_inside_iff :
    (∃ code size start, mongrel2WsFrameGetPayload host (first :: second :: rest).length
        (first :: second :: rest) = .ok (code, size, start) ∧
      (code = 0 → 0 ≤ start ∧ start + size.toNat ≤ (first :: second :: rest).length)) ↔
      startOf second + (declaredOf host second
        (rest.take (classOf second).extendedWidth)).toNat ≤ (first :: second :: rest).length := by
  have long : 1 < (first :: second :: rest).length := by simp
  have starts := getPayloadStart_header host first second rest long
  constructor
  · rintro ⟨code, size, start, read, inside⟩
    rw [mongrel2WsFrameGetPayload, starts, Exec.ok_bind] at read
    obtain ⟨declared, sizeRead, same⟩ := Exec.bind_eq_ok.mp read
    cases same
    have width := (getPayloadSize_returns_iff host first second rest).mp ⟨_, sizeRead⟩
    rw [getPayloadSize_inside host first second long width] at sizeRead
    cases sizeRead
    have within := (inside rfl).2
    omega
  · intro fits
    have width : (classOf second).extendedWidth ≤ rest.length := by
      simp only [startOf, List.length_cons] at fits
      omega
    refine ⟨0, declaredOf host second (rest.take (classOf second).extendedWidth),
      (startOf second : Nat), ?_, fun _ => ⟨by omega, by omega⟩⟩
    rw [mongrel2WsFrameGetPayload, starts, Exec.ok_bind,
      getPayloadSize_inside host first second long width]
    rfl

/-- The mask is read inside the buffer exactly when the mask bit is set and the
mask field is there. -/
theorem getMask_returns_iff (long : 5 < (first :: second :: rest).length) :
    (∃ mask, mongrel2WsFrameGetMask host (first :: second :: rest).length
        (first :: second :: rest) = .ok mask) ↔
      maskBit second = 1 ∧ (classOf second).extendedWidth + 4 ≤ rest.length := by
  rcases maskBit_cases second with unmasked | masked
  · -- The start of the mask is -3, which is read from all the same.
    have outside : readBlock (first :: second :: rest) (-3) 4 = .error .outOfBounds := rfl
    refine iff_of_false ?_ ?_
    · rintro ⟨mask, read⟩
      rw [mongrel2WsFrameGetMask, getMaskStart_unmasked host first second rest unmasked
        (by omega)] at read
      simp only [long, decide_true, cassert_true, Exec.ok_bind, outside] at read
      cases read
    · rintro ⟨masked, -⟩
      rw [unmasked] at masked
      cases masked
  · have begins := getMaskStart_header host first second rest masked (le_of_lt long)
    have read := readBlock_at (first :: second :: rest) (2 + (classOf second).extendedWidth)
      (show 0 < 4 by decide)
    have total : (first :: second :: rest).length = 2 + rest.length := by
      rw [List.length_cons, List.length_cons]
      omega
    have run : mongrel2WsFrameGetMask host (first :: second :: rest).length
        (first :: second :: rest) =
          (readBlock (first :: second :: rest) (2 + (classOf second).extendedWidth : Nat) 4 >>=
            fun retval => .ok (UInt32.ofNat (host.endian.value retval))) := by
      rw [mongrel2WsFrameGetMask, begins]
      simp only [long, decide_true, cassert_true, Exec.ok_bind, Exec.pure_eq_ok]
    rw [run, read]
    by_cases inside : (classOf second).extendedWidth + 4 ≤ rest.length
    · rw [if_pos (by omega)]
      exact iff_of_true ⟨_, rfl⟩ ⟨masked, inside⟩
    · rw [if_neg (by omega)]
      refine iff_of_false ?_ fun both => inside both.2
      rintro ⟨mask, impossible⟩
      cases impossible

/-- In a buffer with a mask field the loop stops before the end exactly when the
payload that it counts is there. -/
theorem setMask_field_iff (mask : UInt32) {layout : Layout} (masked : maskBit layout.second = 1)
    (long : 5 < layout.bytes.length) :
    (∃ code after, mongrel2WsFrameSetMask host layout.bytes.length layout.bytes mask =
        .ok (code, after)) ↔
      (toInt (layout.declaredSize host).toNat).toNat ≤ layout.payload.length := by
  have four : (host.endian.bytes 4 mask.toNat).length = 4 := by simp
  have same : (host.endian.bytes 4 mask.toNat).length = layout.maskField.length := by
    rw [layout.mask_length, four]
    exact (if_pos masked).symm
  have int := (isInt_toInt (layout.declaredSize host).toNat).2
  unfold intMax at int
  rw [layout.setMask_loop host mask masked long same]
  by_cases inside : (toInt (layout.declaredSize host).toNat).toNat ≤ layout.payload.length
  · have loop := (layout.withMaskField _ same).xor_payload four inside (by omega)
    have start : (layout.withMaskField _ same).payloadStart = layout.payloadStart := by
      rw [← Layout.startOf_second, ← Layout.startOf_second]
      rfl
    rw [start] at loop
    rw [loop]
    exact iff_of_true ⟨0, _, rfl⟩ inside
  · have front : (layout.head ++ layout.extended ++ host.endian.bytes 4 mask.toNat).length =
        layout.payloadStart := by
      rw [← layout.length_before_payload]
      simp only [List.length_append, same]
    have loop := xorLoop_overruns four (layout.payloadStart : Int)
      (layout.head ++ layout.extended ++ host.endian.bytes 4 mask.toNat) layout.payload 0
      (by rw [front]; simp) (not_le.mp inside) (by omega)
    have after : (layout.withMaskField _ same).bytes =
        layout.head ++ layout.extended ++ host.endian.bytes 4 mask.toNat ++ layout.payload := by
      rw [Layout.bytes_eq_mask]
      rfl
    rw [after, loop]
    refine iff_of_false ?_ inside
    rintro ⟨code, frame, impossible⟩
    cases impossible

/-- A mask is stored inside the buffer exactly when there is no mask bit, or the
mask field is there and the loop stops before the end of the buffer. -/
theorem setMask_returns_iff (mask : UInt32) (long : 5 < (first :: second :: rest).length) :
    (∃ code after, mongrel2WsFrameSetMask host (first :: second :: rest).length
        (first :: second :: rest) mask = .ok (code, after)) ↔
      maskBit second = 0 ∨ ((classOf second).extendedWidth + 4 ≤ rest.length ∧
        (classOf second).extendedWidth + 4 + (toInt (declaredOf host second
          (rest.take (classOf second).extendedWidth)).toNat).toNat ≤ rest.length) := by
  rcases maskBit_cases second with unmasked | masked
  · refine iff_of_true ?_ (.inl unmasked)
    refine ⟨-1, first :: second :: rest, ?_⟩
    rw [mongrel2WsFrameSetMask, getMaskStart_unmasked host first second rest unmasked (by omega)]
    simp only [long, decide_true, cassert_true, Exec.ok_bind]
    rfl
  · have other : maskBit second ≠ 0 := by
      rw [masked]
      decide
    rw [or_iff_right other]
    have four : (host.endian.bytes 4 mask.toNat).length = 4 := by simp
    have total : (first :: second :: rest).length = 2 + rest.length := by
      rw [List.length_cons, List.length_cons]
      omega
    by_cases field : (classOf second).extendedWidth + 4 ≤ rest.length
    · have width : maskWidth second = 4 := if_pos masked
      have room : (classOf second).extendedWidth + maskWidth second ≤ rest.length := by omega
      obtain ⟨layout, bytes, rfl, extended⟩ := exists_layout first second room
      have size := layout.length_bytes
      rw [bytes, total, ← layout.startOf_second, startOf, width] at size
      rw [← extended, ← layout.declaredSize_eq]
      rw [← bytes] at long ⊢
      rw [setMask_field_iff host mask masked long]
      constructor
      · exact fun inside => ⟨field, by omega⟩
      · rintro ⟨-, inside⟩
        omega
    · refine iff_of_false ?_ fun both => field both.1
      have outside : writeBlock (first :: second :: rest)
          (2 + (classOf second).extendedWidth : Nat) (host.endian.bytes 4 mask.toNat) =
            .error .outOfBounds := writeBlock_outside (by omega) (by omega)
      have notNegative : ¬ ((2 + (classOf second).extendedWidth : Nat) : Int) < 0 := by omega
      rintro ⟨code, after, stored⟩
      rw [mongrel2WsFrameSetMask,
        getMaskStart_header host first second rest masked (le_of_lt long)] at stored
      simp only [long, decide_true, cassert_true, Exec.ok_bind, if_neg notNegative, outside]
        at stored
      cases stored

end Accessors

/-- When each accessor stays inside a received buffer. -/
theorem reads_inside_iff {frame : Bytes} (long : 2 ≤ frame.length) :
    ∃ second extended, second = frame.getD 1 0 ∧
      extended = (frame.drop 2).take (classOf second).extendedWidth ∧
      ((∃ size, mongrel2WsFrameGetPayloadSize host frame.length frame = .ok size) ↔
        2 + (classOf second).extendedWidth ≤ frame.length) ∧
      ((∃ code size start, mongrel2WsFrameGetPayload host frame.length frame =
          .ok (code, size, start) ∧
          (code = 0 → 0 ≤ start ∧ start + size.toNat ≤ (frame.length : Int))) ↔
        startOf second + (declaredOf host second extended).toNat ≤ frame.length) ∧
      (5 < frame.length →
        ((∃ mask, mongrel2WsFrameGetMask host frame.length frame = .ok mask) ↔
          maskBit second = 1 ∧ 6 + (classOf second).extendedWidth ≤ frame.length) ∧
        ∀ mask, (∃ code after, mongrel2WsFrameSetMask host frame.length frame mask =
            .ok (code, after)) ↔
          maskBit second = 0 ∨ (6 + (classOf second).extendedWidth ≤ frame.length ∧
            6 + (classOf second).extendedWidth +
              (toInt (declaredOf host second extended).toNat).toNat ≤ frame.length)) := by
  obtain ⟨first, second, rest, rfl⟩ : ∃ first second rest, frame = first :: second :: rest := by
    match frame, long with
    | first :: second :: rest, _ => exact ⟨first, second, rest, rfl⟩
  have total : (first :: second :: rest).length = 2 + rest.length := by
    rw [List.length_cons, List.length_cons]
    omega
  refine ⟨second, rest.take (classOf second).extendedWidth, rfl, rfl, ?_, ?_, fun six => ⟨?_, ?_⟩⟩
  · rw [getPayloadSize_returns_iff, total]
    omega
  · exact getPayload_inside_iff host first second rest
  · rw [getMask_returns_iff host first second rest six, total]
    exact and_congr_right fun _ => by omega
  · intro mask
    rw [setMask_returns_iff host first second rest mask six, total]
    exact or_congr_right (and_congr (by omega) (by omega))

/-- A whole frame of six bytes is read inside its buffer. -/
theorem reads_inside_iff_six :
    (∃ size, mongrel2WsFrameGetPayloadSize linuxHost 6 [0x81, 0x04, 1, 2, 3, 4] = .ok size) ∧
      ∃ code size start, mongrel2WsFrameGetPayload linuxHost 6 [0x81, 0x04, 1, 2, 3, 4] =
        .ok (code, size, start) ∧ (code = 0 → 0 ≤ start ∧ start + size.toNat ≤ (6 : Int)) := by
  obtain ⟨second, extended, secondEq, extendedEq, sizes, payloads, -⟩ :=
    reads_inside_iff linuxHost (show 2 ≤ ([0x81, 0x04, 1, 2, 3, 4] : Bytes).length by decide)
  cases secondEq
  cases extendedEq
  exact ⟨sizes.mpr (by decide), payloads.mpr (by decide)⟩

/-- Two bytes that announce an extended length, two that announce a payload, six
without the mask bit and six with a mask and no payload behind it. -/
theorem reads_outside :
    mongrel2WsFrameGetPayloadSize linuxHost 2 [0x81, 0x7E] = .error .outOfBounds ∧
      mongrel2WsFrameGetPayload linuxHost 2 [0x81, 0x05] = .ok (0, 5, 2) ∧
      mongrel2WsFrameGetMask linuxHost 6 [0x81, 0x04, 1, 2, 3, 4] = .error .outOfBounds ∧
      ¬ ∃ code after, mongrel2WsFrameSetMask linuxHost 6 [0x81, 0x84, 1, 2, 3, 4] 0 =
        .ok (code, after) := by
  refine ⟨rfl, rfl, rfl, ?_⟩
  have inside := setMask_returns_iff linuxHost 0x81 0x84 [1, 2, 3, 4] 0 (by decide)
  exact fun returned => absurd (inside.mp returned) (by decide)

end M2Handler.Websocket.Framing

import M2Handler.Websocket.Layout

/-!
# Frame creation

`create` computes a size, allocates a zeroed block and writes the second header
byte and the extended length.  As long as the size does not wrap, the block is
the layout that the size class asks for.
-/

namespace M2Handler.Websocket.Framing

open Machine

def lengthCode (size : Nat) : UInt8 :=
  if size ≤ 125 then UInt8.ofNat size
  else if size ≤ 65536 then 126
  else 127

def lengthField (host : Host) (size : Nat) : Bytes :=
  if size ≤ 125 then []
  else if size ≤ 65536 then networkBytes 2 (size % 65536)
  else host.endian.bytes 8 size

def flag (useMask : Bool) : Int := if useMask then 1 else 0

def secondByte (useMask : Bool) (size : Nat) : UInt8 :=
  if useMask then lengthCode size ||| 0x80 else lengthCode size

theorem lengthCode_le (size : Nat) : lengthCode size ≤ 127 := by
  unfold lengthCode
  split
  · apply UInt8.le_iff_toNat_le.mpr
    simp only [UInt8.toNat_ofNat', UInt8.reduceToNat]
    omega
  · split <;> decide

/-- The mask bit and the length bits of a header byte do not disturb each
other. -/
theorem length_bits (code : UInt8) (small : code ≤ 127) :
    code &&& 0x7F = code ∧ (code ||| 0x80) &&& 0x7F = code ∧
      maskBit code = 0 ∧ maskBit (code ||| 0x80) = 1 := by
  revert code
  apply forall_byte
  decide +kernel

theorem secondByte_length (useMask : Bool) (size : Nat) :
    secondByte useMask size &&& 0x7F = lengthCode size := by
  obtain ⟨bare, masked, _⟩ := length_bits (lengthCode size) (lengthCode_le size)
  cases useMask with
  | false => exact bare
  | true => exact masked

theorem maskBit_secondByte (useMask : Bool) (size : Nat) :
    maskBit (secondByte useMask size) = if useMask then 1 else 0 := by
  obtain ⟨_, _, bare, masked⟩ := length_bits (lengthCode size) (lengthCode_le size)
  cases useMask with
  | false => exact bare
  | true => exact masked

/-- The class of a created frame, from the payload length alone. -/
def sizeClass (size : Nat) : FType :=
  if size ≤ 125 then .small
  else if size ≤ 65536 then .medium
  else .large

theorem classOf_secondByte (useMask : Bool) (size : Nat) :
    classOf (secondByte useMask size) = sizeClass size := by
  unfold classOf sizeClass
  rw [secondByte_length]
  unfold lengthCode
  split
  · rename_i small
    rw [if_pos]
    apply UInt8.le_iff_toNat_le.mpr
    simp only [UInt8.toNat_ofNat', UInt8.reduceToNat]
    omega
  · split <;> rfl

theorem length_lengthField (host : Host) (size : Nat) :
    (lengthField host size).length = (sizeClass size).extendedWidth := by
  unfold lengthField sizeClass
  split
  · rfl
  · split <;> simp [FType.extendedWidth]

/-- The layout of the buffer that `create` returns. -/
def created (host : Host) (useMask : Bool) (size : Nat) : Layout where
  first := 0
  second := secondByte useMask size
  extended := lengthField host size
  maskField := List.replicate (maskWidth (secondByte useMask size)) 0
  payload := List.replicate size 0
  extended_length := by rw [classOf_secondByte, length_lengthField]
  mask_length := List.length_replicate

theorem maskWidth_secondByte (useMask : Bool) (size : Nat) :
    maskWidth (secondByte useMask size) = if useMask then 4 else 0 := by
  rw [maskWidth, maskBit_secondByte]
  cases useMask <;> rfl

theorem payloadStart_created (host : Host) (useMask : Bool) (size : Nat) :
    (created host useMask size).payloadStart =
      2 + (sizeClass size).extendedWidth + (if useMask then 4 else 0) := by
  simp only [Layout.payloadStart, created, length_lengthField, List.length_replicate,
    maskWidth_secondByte]

theorem extendedWidth_le (kind : FType) : kind.extendedWidth ≤ 8 := by
  cases kind <;> decide

def frameLength (useMask : Bool) (size : Nat) : Nat :=
  2 + (sizeClass size).extendedWidth + (if useMask then 4 else 0) + size

theorem frameLength_le (useMask : Bool) (size : Nat) : frameLength useMask size ≤ size + 14 := by
  have width := extendedWidth_le (sizeClass size)
  rw [frameLength]
  split <;> omega

/-- The computed size is the length of the frame, as far as 64 bits hold it. -/
theorem sizeNecessary_mod (useMask : Bool) (size : UInt64) :
    (mongrel2WsFrameGetSizeNecessary (flag useMask) size).toNat =
      frameLength useMask size.toNat % 18446744073709551616 := by
  unfold mongrel2WsFrameGetSizeNecessary frameLength sizeClass
  simp only [UInt64.lt_iff_toNat_lt, UInt64.le_iff_toNat_le, UInt64.reduceToNat]
  cases useMask with
  | false =>
      by_cases small : size.toNat ≤ 125
      · rw [if_pos (by omega), if_pos small]
        exact UInt64.toNat_add 2 size
      · by_cases medium : size.toNat ≤ 65536
        · rw [if_neg (by omega), if_pos ⟨by omega, medium⟩, if_neg small, if_pos medium]
          exact UInt64.toNat_add 4 size
        · rw [if_neg (by omega), if_neg (by omega), if_neg small, if_neg medium]
          exact UInt64.toNat_add 10 size
  | true =>
      by_cases small : size.toNat ≤ 125
      · rw [if_pos (by omega), if_pos small]
        exact UInt64.toNat_add 6 size
      · by_cases medium : size.toNat ≤ 65536
        · rw [if_neg (by omega), if_pos ⟨by omega, medium⟩, if_neg small, if_pos medium]
          exact UInt64.toNat_add 8 size
        · rw [if_neg (by omega), if_neg (by omega), if_neg small, if_neg medium]
          exact UInt64.toNat_add 14 size

/-- The computed size is the layout's length unless the sum wraps. -/
theorem sizeNecessary_toNat (host : Host) (useMask : Bool) (size : UInt64)
    (fits : frameLength useMask size.toNat < 18446744073709551616) :
    (mongrel2WsFrameGetSizeNecessary (flag useMask) size).toNat =
      (created host useMask size.toNat).payloadStart + size.toNat := by
  rw [sizeNecessary_mod, Nat.mod_eq_of_lt fits, payloadStart_created, frameLength]

/-- A zeroed block with room for the two header bytes, an extended length of
`width` bytes and `rest` more bytes. -/
theorem zeroes (width rest : Nat) :
    (List.replicate (2 + width + rest) 0 : Bytes) =
      0 :: 0 :: (List.replicate width 0 ++ List.replicate rest 0) := by
  rw [show 2 + width + rest = (width + rest) + 1 + 1 by omega, List.replicate_succ,
    List.replicate_succ, List.replicate_append_replicate]

theorem write_extended (first second : UInt8) (width : Nat) (rest : Bytes) {field : Bytes}
    (same : field.length = width) :
    writeBlock (first :: second :: (List.replicate width 0 ++ rest)) 2 field =
      .ok (first :: second :: (field ++ rest)) := by
  have written := writeBlock_append [first, second] (List.replicate width 0) rest field (by
    rw [same, List.length_replicate])
  simpa using written

theorem or_second (first second bits : UInt8) (rest : Bytes) :
    orByte (first :: second :: rest) 1 bits = .ok (first :: (second ||| bits) :: rest) :=
  orByte_append [first] rest second bits

/-- `set_payload_size` on a zeroed block of the right class. -/
theorem setPayloadSize_zeroes (host : Host) {len : Nat} (size : UInt64) (rest : Nat)
    (asserted : host.ndebug = true ∨ 2 < len) :
    mongrel2WsFrameSetPayloadSize host len
        (List.replicate (2 + (sizeClass size.toNat).extendedWidth + rest) 0) size =
      .ok (0, 0 :: lengthCode size.toNat ::
        (lengthField host size.toNat ++ List.replicate rest 0)) := by
  have passed : cassert host.ndebug (decide (2 < len)) = .ok () := by
    rcases asserted with ndebug | long
    · rw [ndebug, cassert_ndebug]
    · simp [long]
  rw [mongrel2WsFrameSetPayloadSize, passed, Exec.ok_bind, zeroes]
  simp only [UInt64.le_iff_toNat_le, UInt64.reduceToNat]
  unfold sizeClass lengthCode lengthField
  by_cases small : size.toNat ≤ 125
  · have code : (0 : UInt8) ||| (size &&& 0x7F).toUInt8 = UInt8.ofNat size.toNat := by
      apply UInt8.toNat_inj.mp
      have low : size.toNat % 256 &&& 127 = size.toNat % 256 :=
        Nat.and_two_pow_sub_one_of_lt_two_pow (show size.toNat % 256 < 2 ^ 7 by omega)
      simp [low]
    simp only [if_pos small, or_second, Exec.ok_bind, Exec.pure_eq_ok, code,
      FType.extendedWidth, List.replicate_zero, List.nil_append]
  · by_cases medium : size.toNat ≤ 65536
    · have stored : host.endian.bytes 2 (htons host.endian size.toUInt16).toNat =
          networkBytes 2 (size.toNat % 65536) := by
        rw [bytes_htons, UInt64.toNat_toUInt16]
      simp only [if_neg small, if_pos medium,
        if_pos (show 126 ≤ size.toNat ∧ size.toNat ≤ 65536 from ⟨by omega, medium⟩),
        or_second, Exec.ok_bind, stored, FType.extendedWidth]
      rw [write_extended _ _ 2 _ (length_networkBytes 2 _)]
      rfl
    · simp only [if_neg small, if_neg medium,
        if_neg (show ¬ (126 ≤ size.toNat ∧ size.toNat ≤ 65536) by omega),
        if_pos (show 65537 ≤ size.toNat by omega), or_second, Exec.ok_bind,
        FType.extendedWidth]
      rw [write_extended _ _ 8 _ (Endian.length_bytes _ 8 _)]
      rfl

/-- What `create` returns when the memory is there and the size does not
wrap. -/
theorem create_eq (host : Host) (useMask : Bool) (size : UInt64)
    (fits : frameLength useMask size.toNat < 18446744073709551616)
    (asserted : host.ndebug = true ∨
      2 < (mongrel2WsFrameGetSizeNecessary (flag useMask) size).toNat)
    (memory : host.frameMemory
      (mongrel2WsFrameGetSizeNecessary (flag useMask) size).toNat = true) :
    mongrel2WsFrameCreate host (flag useMask) size =
      .ok (0, mongrel2WsFrameGetSizeNecessary (flag useMask) size,
        some (created host useMask size.toNat).bytes) := by
  have necessary := sizeNecessary_toNat host useMask size fits
  rw [payloadStart_created] at necessary
  have width : (mongrel2WsFrameGetSizeNecessary (flag useMask) size).toNat =
      2 + (sizeClass size.toNat).extendedWidth +
        ((if useMask then 4 else 0) + size.toNat) := by
    omega
  have written := setPayloadSize_zeroes host size ((if useMask then 4 else 0) + size.toNat)
    asserted
  rw [← width] at written
  rw [mongrel2WsFrameCreate, if_pos memory]
  dsimp only
  rw [written, Exec.ok_bind]
  cases useMask with
  | false =>
      have field : maskWidth (lengthCode size.toNat) = 0 :=
        maskWidth_secondByte false size.toNat
      rw [if_neg (show ¬ flag false ≠ 0 by decide)]
      simp [created, Layout.bytes, secondByte, field]
  | true =>
      have field : maskWidth (lengthCode size.toNat ||| 0x80) = 4 :=
        maskWidth_secondByte true size.toNat
      rw [if_pos (show flag true ≠ 0 by decide)]
      dsimp only
      rw [or_second]
      simp [created, Layout.bytes, secondByte, field, List.replicate_add]

/-! ## Payloads whose length is an `int` -/

section Int

variable (host : Host) (useMask : Bool) {n : Nat}

/-- The whole length of a created buffer. -/
theorem length_created : (created host useMask n).bytes.length = frameLength useMask n := by
  rw [Layout.length_bytes, payloadStart_created, frameLength]
  simp only [created, List.length_replicate]

variable (fits : n ≤ 2147483647)
include fits

theorem toNat_ofNat : (UInt64.ofNat n).toNat = n := by
  rw [UInt64.toNat_ofNat']
  omega

theorem frameLength_fits : frameLength useMask n < 18446744073709551616 := by
  have short := frameLength_le useMask n
  omega

theorem necessary_ofNat :
    (mongrel2WsFrameGetSizeNecessary (flag useMask) (UInt64.ofNat n)).toNat =
      frameLength useMask n := by
  rw [sizeNecessary_mod, toNat_ofNat fits, Nat.mod_eq_of_lt (frameLength_fits useMask fits)]

/-- With memory and past the assertion, `create` returns the buffer of its layout. -/
theorem create_ofNat (asserted : host.ndebug = true ∨ 2 < frameLength useMask n)
    (memory : host.frameMemory (frameLength useMask n) = true) :
    ∃ size, mongrel2WsFrameCreate host (flag useMask) (UInt64.ofNat n) =
        .ok (0, size, some (created host useMask n).bytes) ∧
      size.toNat = frameLength useMask n := by
  have length := toNat_ofNat fits
  have necessary := necessary_ofNat useMask fits
  rw [← necessary] at asserted memory
  have returned := create_eq host useMask (UInt64.ofNat n)
    (by rw [length]; exact frameLength_fits useMask fits) asserted memory
  rw [length] at returned
  exact ⟨_, returned, necessary⟩

theorem create_no_memory (memory : host.frameMemory (frameLength useMask n) = false) :
    ∃ size, mongrel2WsFrameCreate host (flag useMask) (UInt64.ofNat n) = .ok (-1, size, none) := by
  have refused : ¬ host.frameMemory
      (mongrel2WsFrameGetSizeNecessary (flag useMask) (UInt64.ofNat n)).toNat = true := by
    rw [necessary_ofNat useMask fits, memory]
    exact Bool.false_ne_true
  exact ⟨_, if_neg refused⟩

/-- What a successful `create` returned. -/
theorem create_inv (ndebug : host.ndebug = true) {size : UInt64} {buffer : Bytes}
    (returned : mongrel2WsFrameCreate host (flag useMask) (UInt64.ofNat n) =
      .ok (0, size, some buffer)) :
    buffer = (created host useMask n).bytes ∧ size.toNat = frameLength useMask n := by
  cases memory : host.frameMemory (frameLength useMask n) with
  | true =>
      obtain ⟨other, same, sized⟩ := create_ofNat host useMask fits (.inl ndebug) memory
      rw [same] at returned
      cases returned
      exact ⟨rfl, sized⟩
  | false =>
      obtain ⟨other, same⟩ := create_no_memory host useMask fits memory
      rw [same] at returned
      cases returned

end Int

end M2Handler.Websocket.Framing

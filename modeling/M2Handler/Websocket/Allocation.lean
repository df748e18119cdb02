import M2Handler.Websocket.Creation

/-!
# The size of a created frame

The length of a frame is a sum of 64-bit numbers.  At the top of the range the sum
wraps, and `create` then asks for the few bytes that are left of it.
-/

namespace M2Handler.Websocket.Framing

open Machine

/-- What a caller of `create` relies on: the header goes into the block, a block that
is returned holds the whole frame, and a frame of more than 64 bits of length is
refused. -/
structure HonestCreate (host : Host) (useMask : Bool) (size : UInt64) : Prop where
  inside : mongrel2WsFrameCreate host (flag useMask) size ≠ .error .outOfBounds
  sized : ∀ length block, mongrel2WsFrameCreate host (flag useMask) size = .ok (0, length, block) →
    length.toNat = frameLength useMask size.toNat ∧
      ∃ bytes, block = some bytes ∧ bytes.length = length.toNat
  refused : 18446744073709551616 ≤ frameLength useMask size.toNat →
    ∃ length block, mongrel2WsFrameCreate host (flag useMask) size = .ok (-1, length, block)

section Wrapping

variable {useMask : Bool} {size : UInt64}

/-- Only a frame of the largest class wraps. -/
theorem wraps_large (wraps : 18446744073709551616 ≤ frameLength useMask size.toNat) :
    65537 ≤ size.toNat := by
  have total := frameLength_le useMask size.toNat
  omega

/-- The length that is left of a sum that wraps. -/
theorem sizeNecessary_wraps (wraps : 18446744073709551616 ≤ frameLength useMask size.toNat) :
    (mongrel2WsFrameGetSizeNecessary (flag useMask) size).toNat =
      frameLength useMask size.toNat - 18446744073709551616 := by
  have short := frameLength_le useMask size.toNat
  have limit := size.toNat_lt
  rw [sizeNecessary_mod]
  omega

end Wrapping

/-- The two header bytes and the extended length of the largest class need ten
bytes. -/
theorem setPayloadSize_short (host : Host) {len : Nat} {size : UInt64}
    (large : 65537 ≤ size.toNat) (short : len < 10) :
    ∃ fault : Fault, fault.Halts ∧
      mongrel2WsFrameSetPayloadSize host len (List.replicate len 0) size = .error fault := by
  rw [mongrel2WsFrameSetPayloadSize]
  by_cases passed : (host.ndebug || decide (2 < len)) = true
  · have assertion : cassert host.ndebug (decide (2 < len)) = .ok () := if_pos passed
    refine ⟨.outOfBounds, trivial, ?_⟩
    rw [assertion, Exec.ok_bind]
    simp only [UInt64.le_iff_toNat_le, UInt64.reduceToNat]
    rw [if_neg (by omega), if_neg (by omega), if_pos large]
    rcases len with _ | _ | len
    · rfl
    · rfl
    · have overlong : (0 :: (0 ||| (127 &&& 0x7F)) :: List.replicate len 0 : Bytes).length <
          2 + (host.endian.bytes 8 size.toNat).length := by
        simp
        omega
      have outside := writeBlock_outside (by simp) overlong
      rw [List.replicate_succ, List.replicate_succ, or_second, Exec.ok_bind]
      simp only [Nat.cast_ofNat] at outside
      rw [outside]
      rfl
  · have assertion : cassert host.ndebug (decide (2 < len)) = .error .assertion := if_neg passed
    exact ⟨.assertion, trivial, by rw [assertion]; rfl⟩

/-- A length that wraps is never refused: the header leaves the block, or a block of
ten to thirteen bytes is returned. -/
theorem create_wraps (host : Host) {useMask : Bool} {size : UInt64}
    (wraps : 18446744073709551616 ≤ frameLength useMask size.toNat)
    (memory : host.frameMemory (frameLength useMask size.toNat - 18446744073709551616) = true) :
    (∃ fault : Fault, fault.Halts ∧
        mongrel2WsFrameCreate host (flag useMask) size = .error fault) ∨
      ∃ length block, mongrel2WsFrameCreate host (flag useMask) size =
          .ok (0, length, some block) ∧
        10 ≤ length.toNat ∧ length.toNat ≤ 13 := by
  have large := wraps_large wraps
  have total := frameLength_le useMask size.toNat
  have limit := size.toNat_lt
  have necessary := sizeNecessary_wraps wraps
  rw [← necessary] at memory
  rw [mongrel2WsFrameCreate, if_pos memory]
  dsimp only
  by_cases short : (mongrel2WsFrameGetSizeNecessary (flag useMask) size).toNat < 10
  · obtain ⟨fault, halts, stopped⟩ := setPayloadSize_short host large short
    exact .inl ⟨fault, halts, by rw [stopped]; rfl⟩
  · right
    have kind : sizeClass size.toNat = .large := by
      rw [sizeClass, if_neg (by omega), if_neg (by omega)]
    have width : 2 + (sizeClass size.toNat).extendedWidth +
          ((mongrel2WsFrameGetSizeNecessary (flag useMask) size).toNat - 10) =
        (mongrel2WsFrameGetSizeNecessary (flag useMask) size).toNat := by
      rw [kind, FType.extendedWidth]
      omega
    have long : 2 < (mongrel2WsFrameGetSizeNecessary (flag useMask) size).toNat := by omega
    have written := setPayloadSize_zeroes host size
      ((mongrel2WsFrameGetSizeNecessary (flag useMask) size).toNat - 10) (.inr long)
    rw [width] at written
    rw [written, Exec.ok_bind]
    cases useMask with
    | false =>
        rw [if_neg (show ¬ flag false ≠ 0 by decide)]
        exact ⟨_, _, rfl, by omega, by omega⟩
    | true =>
        rw [if_pos (show flag true ≠ 0 by decide)]
        dsimp only
        rw [or_second, Exec.ok_bind]
        exact ⟨_, _, rfl, by omega, by omega⟩

/-- Without memory nothing is handed out. -/
theorem honest_refused (host : Host) {useMask : Bool} {size : UInt64}
    (memory : ¬ host.frameMemory
      (mongrel2WsFrameGetSizeNecessary (flag useMask) size).toNat = true) :
    HonestCreate host useMask size := by
  have refused : mongrel2WsFrameCreate host (flag useMask) size =
      .ok (-1, mongrel2WsFrameGetSizeNecessary (flag useMask) size, none) := if_neg memory
  constructor
  · rw [refused]
    intro stopped
    cases stopped
  · rw [refused]
    intro _ _ returned
    cases returned
  · intro _
    exact ⟨_, _, refused⟩

/-- A failed assertion in a build that has them hands out nothing either. -/
theorem honest_fits (host : Host) {useMask : Bool} {size : UInt64}
    (fits : frameLength useMask size.toNat < 18446744073709551616)
    (memory : host.frameMemory
      (mongrel2WsFrameGetSizeNecessary (flag useMask) size).toNat = true) :
    HonestCreate host useMask size := by
  have necessary := sizeNecessary_mod useMask size
  rw [Nat.mod_eq_of_lt fits] at necessary
  by_cases asserted : host.ndebug = true ∨
      2 < (mongrel2WsFrameGetSizeNecessary (flag useMask) size).toNat
  · have returned := create_eq host useMask size fits asserted memory
    constructor
    · rw [returned]
      intro stopped
      cases stopped
    · rw [returned]
      intro _ _ same
      cases same
      exact ⟨necessary, _, rfl, (length_created host useMask).trans necessary.symm⟩
    · intro wraps
      omega
  · obtain ⟨debug, short⟩ := not_or.mp asserted
    have failed : mongrel2WsFrameCreate host (flag useMask) size = .error .assertion := by
      have assertion : cassert host.ndebug (decide
          (2 < (mongrel2WsFrameGetSizeNecessary (flag useMask) size).toNat)) =
            .error .assertion := if_neg (by simp [debug, short])
      rw [mongrel2WsFrameCreate, if_pos memory]
      dsimp only
      rw [mongrel2WsFrameSetPayloadSize, assertion]
      rfl
    constructor
    · rw [failed]
      intro stopped
      cases stopped
    · rw [failed]
      intro _ _ returned
      cases returned
    · intro wraps
      omega

/-- `create` keeps its word exactly when the length fits 64 bits or the memory for
what is left of it is refused. -/
theorem create_honest_iff (host : Host) (useMask : Bool) (size : UInt64) :
    HonestCreate host useMask size ↔
      frameLength useMask size.toNat < 18446744073709551616 ∨
        host.frameMemory (frameLength useMask size.toNat - 18446744073709551616) = false := by
  constructor
  · intro honest
    by_cases fits : frameLength useMask size.toNat < 18446744073709551616
    · exact .inl fits
    · right
      obtain ⟨length, block, refused⟩ := honest.refused (by omega)
      by_contra memory
      rw [Bool.not_eq_false] at memory
      rcases create_wraps host (by omega) memory with ⟨fault, _, stopped⟩ | ⟨_, _, returned, _⟩
      · rw [stopped] at refused
        cases refused
      · rw [returned] at refused
        cases refused
  · intro condition
    by_cases memory : host.frameMemory
        (mongrel2WsFrameGetSizeNecessary (flag useMask) size).toNat = true
    · have fits : frameLength useMask size.toNat < 18446744073709551616 := by
        rcases condition with fits | refused
        · exact fits
        · by_contra wraps
          rw [← sizeNecessary_wraps (by omega), memory] at refused
          cases refused
      exact honest_fits host fits memory
    · exact honest_refused host memory

/-- For a payload of `2^64 - 1` bytes and a mask, `create` returns thirteen bytes. -/
theorem create_undersized :
    ¬ HonestCreate linuxHost true 18446744073709551615 := by
  intro honest
  have returned : mongrel2WsFrameCreate linuxHost (flag true) 18446744073709551615 =
      .ok (0, 13, some [0, 255, 255, 255, 255, 255, 255, 255, 255, 255, 0, 0, 0]) := rfl
  obtain ⟨length, _⟩ := honest.sized _ _ returned
  exact absurd length (by decide)

end M2Handler.Websocket.Framing

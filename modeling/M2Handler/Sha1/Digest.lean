import M2Handler.Sha1.Process

/-!
# Digests

A context stands for the message that its updates brought.  Its state is that of the
full blocks, its buffer starts with what does not fill one, and its totals count the
bytes.  The pieces of a message do not matter, as long as each is counted in 32 bits.
-/

namespace M2Handler.Sha1

open Machine Hash

/-! ## Copying -/

/-- `memcpy` into a block with room for the source. -/
theorem writeBlock_inside {block source : Bytes} {index : Nat}
    (room : index + source.length ≤ block.length) :
    writeBlock block index source =
      .ok (block.take index ++ source ++ block.drop (index + source.length)) := by
  have place : (index : Int).toNat = index := Int.toNat_natCast _
  by_cases empty : source.length = 0
  · rw [writeBlock, if_pos empty, List.eq_nil_of_length_eq_zero empty]
    simp
  · rw [writeBlock, if_neg empty, place, if_pos ⟨by omega, room⟩]

/-- What the last branch of `sha1_update` leaves in the buffer. -/
theorem kept_eq (ctx : Sha1Context) {before rest after : Bytes} {left : Nat}
    (room : left + rest.length ≤ ctx.buffer.length) :
    ∃ buffer, (if 0 < rest.length then do
        let bytes ← readBlock (before ++ rest ++ after) before.length rest.length
        let buffer ← writeBlock ctx.buffer left bytes
        return { ctx with buffer }
      else return ctx) = (Except.ok { ctx with buffer } : Exec Sha1Context) ∧
      buffer.length = ctx.buffer.length ∧
        buffer.take (left + rest.length) = ctx.buffer.take left ++ rest := by
  have front : (ctx.buffer.take left).length = left := List.length_take_of_le (by omega)
  by_cases some : 0 < rest.length
  · refine ⟨ctx.buffer.take left ++ rest ++ ctx.buffer.drop (left + rest.length), ?_, ?_, ?_⟩
    · rw [if_pos some, readBlock_append, Exec.ok_bind, writeBlock_inside room]
      rfl
    · simp only [List.length_append, front, List.length_drop]
      omega
    · exact List.take_left' (by rw [List.length_append, front])
  · have none : rest = [] := List.eq_nil_of_length_eq_zero (by omega)
    refine ⟨ctx.buffer, by rw [if_neg some]; rfl, rfl, ?_⟩
    rw [none, List.append_nil, List.length_nil, Nat.add_zero]

/-! ## Updates -/

/-- The loop compresses the full blocks of a piece. -/
theorem updateLoop_eq (ctx : Sha1Context) (before piece after : Bytes) {fuel : Nat}
    (enough : piece.length / 64 < fuel) :
    ∃ state before' rest,
      updateLoop (before ++ piece ++ after) fuel ctx before.length piece.length =
        .ok ({ ctx with state }, before'.length, rest.length) ∧
      before ++ piece = before' ++ rest ∧
        absorb 64 compress ctx.state.low piece = (state.low, rest) := by
  induction piece using block_induction (show 0 < 64 by decide) generalizing ctx before fuel with
  | short piece few =>
      obtain ⟨fuel, rfl⟩ : ∃ less, fuel = less + 1 := ⟨fuel - 1, by omega⟩
      refine ⟨ctx.state, before, piece, ?_, rfl, absorb_short few⟩
      rw [updateLoop, if_neg (by omega)]
      rfl
  | block block rest full ih =>
      rw [List.length_append] at enough
      obtain ⟨fuel, rfl⟩ : ∃ less, fuel = less + 1 := ⟨fuel - 1, by omega⟩
      obtain ⟨state, processed, low⟩ := sha1Process_eq ctx (show 64 ≤ block.length by omega)
      have less : rest.length / 64 < fuel := by omega
      obtain ⟨state', before', rest', looped, cut, absorbed⟩ :=
        ih { ctx with state } (before ++ block) less
      have read : readBlock (before ++ (block ++ rest) ++ after) before.length 64 = .ok block := by
        have part := readBlock_append before block (rest ++ after)
        rw [full] at part
        rw [← part]
        simp only [List.append_assoc]
      refine ⟨state', before', rest', ?_, by rw [← cut, List.append_assoc], ?_⟩
      · rw [updateLoop, List.length_append, full, if_pos (by omega), read, Exec.ok_bind, processed]
        have less : 64 + rest.length - 64 = rest.length := by omega
        rw [less]
        simpa only [List.append_assoc, List.length_append, full] using looped
      · rw [absorb_block full (by decide), ← low]
        exact absorbed

/-- The first branch of `sha1_update` completes the block in the buffer if it can.
What waits then is nothing, or less than a block with the rest of the piece. -/
theorem filled_eq {ctx : Sha1Context} (size : ctx.buffer.length = 64) {left : Nat}
    (left_lt : left < 64) (piece after : Bytes) :
    ∃ state buffer left' before rest,
      (∀ next : Sha1Context × Nat × Nat × Nat → Exec Sha1Context,
        (if left ≠ 0 ∧ 64 - left ≤ piece.length then do
          let bytes ← readBlock (piece ++ after) 0 (64 - left)
          let buffer ← writeBlock ctx.buffer left bytes
          let result ← pure
            (sha1Process { ctx with buffer } buffer, 0, 64 - left, piece.length - (64 - left))
          next result
        else do
          let result ← pure (ctx, left, 0, piece.length)
          next result) =
        next ({ ctx with state, buffer }, left', before.length, rest.length)) ∧
      piece = before ++ rest ∧ buffer.length = 64 ∧ (left' = 0 ∨ left' + rest.length < 64) ∧
        absorb 64 compress state.low (buffer.take left' ++ rest) =
          absorb 64 compress ctx.state.low (ctx.buffer.take left ++ piece) := by
  by_cases full : left ≠ 0 ∧ 64 - left ≤ piece.length
  · have enough := full.2
    have width : (piece.take (64 - left)).length = 64 - left := List.length_take_of_le enough
    have front : (ctx.buffer.take left).length = left := List.length_take_of_le (by omega)
    have read : readBlock (piece ++ after) 0 (64 - left) = .ok (piece.take (64 - left)) := by
      have part := readBlock_append [] (piece.take (64 - left)) (piece.drop (64 - left) ++ after)
      rw [width, List.nil_append, ← List.append_assoc, List.take_append_drop] at part
      exact part
    have none : ctx.buffer.drop (left + (64 - left)) = [] :=
      List.drop_eq_nil_of_le (by omega)
    have whole : (ctx.buffer.take left ++ piece.take (64 - left)).length = 64 := by
      rw [List.length_append, front, width]
      omega
    have written : writeBlock ctx.buffer left (piece.take (64 - left)) =
        .ok (ctx.buffer.take left ++ piece.take (64 - left)) := by
      rw [writeBlock_inside (by omega), width, none, List.append_nil]
    obtain ⟨state, processed, low⟩ := sha1Process_eq
      { ctx with buffer := ctx.buffer.take left ++ piece.take (64 - left) } whole.ge
    refine ⟨state, _, 0, piece.take (64 - left), piece.drop (64 - left), fun next => ?_,
      (List.take_append_drop _ _).symm, whole, .inl rfl, ?_⟩
    · rw [if_pos full, read, Exec.ok_bind, written, Exec.ok_bind, processed,
        width, List.length_drop]
      rfl
    · rw [low, List.take_zero, List.nil_append, ← absorb_block whole (by decide),
        List.append_assoc, List.take_append_drop]
  · refine ⟨ctx.state, ctx.buffer, left, [], piece, fun next => ?_, rfl, size, ?_, rfl⟩
    · rw [if_neg full]
      rfl
    · by_cases start : left = 0
      · exact .inl start
      · exact .inr (by
          have short := not_and.mp full start
          omega)

/-- The context after the bytes of a message. -/
structure Hashing (message : Bytes) (ctx : Sha1Context) : Prop where
  state : ctx.state.low = (absorb 64 compress .start message).1
  buffer : ctx.buffer.take (message.length % 64) = (absorb 64 compress .start message).2
  size : ctx.buffer.length = 64
  total0 : ctx.total0.toNat = message.length % 4294967296
  total1 : ctx.total1 = UInt64.ofNat (message.length / 4294967296)

theorem length_held (message : Bytes) :
    (absorb 64 compress .start message).2.length = message.length % 64 :=
  length_absorb (by decide) _ _

/-- The bytes of `sha1_padding` that are used. -/
theorem padding_eq (length : Nat) :
    0x80 :: List.replicate (zeros length) 0 ++ List.replicate (63 - zeros length) 0 =
      sha1Padding := by
  have few : zeros length < 64 := Nat.mod_lt _ (by decide)
  rw [sha1Padding, List.cons_append, List.replicate_append_replicate, Nat.add_sub_cancel' (by omega)]

/-- The pads are left alone. -/
def SamePads (before after : Sha1Context) : Prop :=
  after.ipad = before.ipad ∧ after.opad = before.opad

section Update

variable {message : Bytes} {ctx : Sha1Context} (hashing : Hashing message ctx)
include hashing

theorem left_eq : (ctx.total0 &&& 0x3F).toNat = message.length % 64 := by
  have mask : (ctx.total0 &&& 0x3F).toNat = ctx.total0.toNat % 64 := by
    rw [UInt64.toNat_and]
    exact Nat.and_two_pow_sub_one_eq_mod _ 6
  rw [mask, hashing.total0]
  omega

/-- The totals count a piece, and carry. -/
theorem totals_eq {ilen : Nat} (counted : ilen < 4294967296) {total0 : UInt64}
    (sum : total0 = (ctx.total0 + UInt64.ofNat ilen) &&& 0xFFFFFFFF) :
    total0.toNat = (message.length + ilen) % 4294967296 ∧
      (if total0 < UInt64.ofNat ilen then ctx.total1 + 1 else ctx.total1) =
        UInt64.ofNat ((message.length + ilen) / 4294967296) := by
  have length : (UInt64.ofNat ilen).toNat = ilen := UInt64.toNat_ofNat_of_lt' (by
    show ilen < 18446744073709551616
    omega)
  have low : total0.toNat = (message.length + ilen) % 4294967296 := by
    have held := hashing.total0
    rw [sum, mask_eq, UInt32.toNat_toUInt64, UInt64.toNat_toUInt32, UInt64.toNat_add, length, held]
    omega
  refine ⟨low, ?_⟩
  rw [hashing.total1]
  split
  all_goals
    rename_i compared
    rw [UInt64.lt_iff_toNat_lt, low, length] at compared
  · have carry : (message.length + ilen) / 4294967296 = message.length / 4294967296 + 1 := by
      omega
    rw [carry, UInt64.ofNat_add]
    rfl
  · have same : (message.length + ilen) / 4294967296 = message.length / 4294967296 := by omega
    rw [same]

/-- `sha1_update` brings a piece of the message. -/
theorem sha1Update_eq {piece : Bytes} (after : Bytes) (counted : piece.length < 4294967296) :
    ∃ ctx', sha1Update ctx (piece ++ after) piece.length = .ok ctx' ∧
      Hashing (message ++ piece) ctx' ∧ SamePads ctx ctx' := by
  by_cases empty : piece.length = 0
  · rw [List.eq_nil_of_length_eq_zero empty, List.append_nil]
    exact ⟨ctx, rfl, hashing, rfl, rfl⟩
  obtain ⟨low, high⟩ := totals_eq hashing counted rfl
  rw [sha1Update, if_neg empty]
  dsimp only
  rw [left_eq hashing]
  generalize (ctx.total0 + UInt64.ofNat piece.length) &&& 0xFFFFFFFF = total0 at low high ⊢
  rw [high]
  generalize counts : UInt64.ofNat ((message.length + piece.length) / 4294967296) = total1
  obtain ⟨state, buffer, left, before, rest, filled, cut, size, few, first⟩ :=
    @filled_eq { ctx with total0, total1 } hashing.size _
      (Nat.mod_lt message.length (by decide)) piece after
  dsimp only at filled
  obtain ⟨state', place, waiting, looped, behind, absorbed⟩ :=
    updateLoop_eq { ctx with state, buffer, total0, total1 } before rest after
      (Nat.lt_succ_self (rest.length / 64))
  rw [← cut] at looped
  have second : absorb 64 compress state.low (buffer.take left ++ rest) =
      (state'.low, buffer.take left ++ waiting) := by
    rcases few with rfl | short
    · exact absorbed
    · have front : (buffer.take left).length = left := List.length_take_of_le (by omega)
      rw [absorb_short (by omega)] at absorbed
      obtain ⟨sameState, sameRest⟩ := Prod.mk.inj absorbed
      rw [absorb_short (by rw [List.length_append, front]; exact short)]
      dsimp only at sameState
      rw [sameState, sameRest]
  have whole : absorb 64 compress .start (message ++ piece) =
      (state'.low, buffer.take left ++ waiting) := by
    rw [absorb_append (by decide), ← hashing.state, ← hashing.buffer, ← second]
    exact first.symm
  have width : left + waiting.length = (message ++ piece).length % 64 := by
    rw [← length_held, whole, List.length_append, List.length_take_of_le (by omega)]
  obtain ⟨buffer', kept, size', front⟩ :=
    @kept_eq { ctx with state := state', buffer, total0, total1 } place waiting after left (by
      show left + waiting.length ≤ buffer.length
      omega)
  rw [← behind, ← cut] at kept
  rw [filled, looped, Exec.ok_bind]
  refine ⟨_, kept, ⟨?_, ?_, ?_, ?_, ?_⟩, rfl, rfl⟩
  · rw [whole]
  · rw [← width, front, whole]
  · exact size'.trans size
  · rw [List.length_append]
    exact low
  · rw [List.length_append]
    exact counts.symm

/-! ## Finishing -/

/-- The length in bits, as the totals give it. -/
theorem msglen_eq :
    putUlongBe ((ctx.total0 >>> 29) ||| (ctx.total1 <<< 3)) ++ putUlongBe (ctx.total0 <<< 3) =
      networkBytes 8 (8 * message.length) := by
  have total0 := hashing.total0
  have total1 : ctx.total1.toNat = message.length / 4294967296 % 18446744073709551616 := by
    rw [hashing.total1]
    exact UInt64.toNat_ofNat'
  have low : (ctx.total0 <<< 3).toUInt32.toNat = 8 * message.length % 4294967296 := by
    rw [UInt64.toNat_toUInt32, UInt64.toNat_shiftLeft, total0, Nat.shiftLeft_eq]
    show message.length % 4294967296 * 2 ^ 3 % 2 ^ 64 % 2 ^ 32 = _
    omega
  have high : ((ctx.total0 >>> 29) ||| (ctx.total1 <<< 3)).toUInt32.toNat =
      8 * message.length / 4294967296 % 4294967296 := by
    have shifted : (ctx.total1 <<< 3).toNat = (ctx.total1.toNat <<< 3) % 2 ^ 64 :=
      UInt64.toNat_shiftLeft _ _
    have part : ctx.total0.toNat >>> 29 < 2 ^ 3 := by
      rw [Nat.shiftRight_eq_div_pow]
      omega
    rw [UInt64.toNat_toUInt32, UInt64.toNat_or, Nat.or_comm, Nat.or_mod_two_pow, shifted,
      Nat.mod_mod_of_dvd _ (by decide), ← Nat.or_mod_two_pow, UInt64.toNat_shiftRight]
    show (ctx.total1.toNat <<< 3 ||| ctx.total0.toNat >>> 29) % 2 ^ 32 = _
    rw [or_eq_add _ part, Nat.shiftRight_eq_div_pow, total0, total1]
    omega
  have halves := networkBytes_add 4 4 (8 * message.length)
  rw [putUlongBe_eq, putUlongBe_eq, low, high]
  exact halves.symm

theorem padn_eq :
    (if ctx.total0 &&& 0x3F < 56 then 56 - (ctx.total0 &&& 0x3F)
      else 120 - (ctx.total0 &&& 0x3F)).toNat = zeros message.length + 1 := by
  have last := left_eq hashing
  generalize ctx.total0 &&& 0x3F = rest at last ⊢
  have before : rest < 56 ↔ message.length % 64 < 56 := by
    rw [UInt64.lt_iff_toNat_lt, last]
    rfl
  have from56 (few : message.length % 64 < 56) : (56 - rest).toNat = 56 - message.length % 64 := by
    rw [← last]
    refine UInt64.toNat_sub_of_le _ _ (UInt64.le_iff_toNat_le.mpr ?_)
    rw [last]
    exact few.le
  have from120 : (120 - rest).toNat = 120 - message.length % 64 := by
    rw [← last]
    refine UInt64.toNat_sub_of_le _ _ (UInt64.le_iff_toNat_le.mpr ?_)
    rw [last]
    show _ ≤ 120
    omega
  rw [zeros]
  by_cases few : rest < 56
  · have small := before.mp few
    rw [if_pos few, from56 small]
    omega
  · rw [if_neg few, from120]
    have many := mt before.mpr few
    omega

/-- `sha1_finish` gives the digest of the message. -/
theorem sha1Finish_eq :
    ∃ ctx', sha1Finish ctx = .ok (Hash.sha1 message, ctx') ∧
      ctx'.buffer.length = 64 ∧ SamePads ctx ctx' := by
  have padCounted :
      (0x80 :: List.replicate (zeros message.length) 0 : Bytes).length < 4294967296 := by
    have few : zeros message.length < 64 := Nat.mod_lt _ (by decide)
    rw [List.length_cons, List.length_replicate]
    omega
  have lengthCounted : (networkBytes 8 (8 * message.length)).length < 4294967296 := by
    rw [length_networkBytes]
    decide
  obtain ⟨padded, update, hashing', pads⟩ :=
    sha1Update_eq hashing (List.replicate (63 - zeros message.length) 0) padCounted
  obtain ⟨final, update', done, pads'⟩ := sha1Update_eq hashing' [] lengthCounted
  rw [padding_eq, List.length_cons, List.length_replicate] at update
  rw [List.append_nil, length_networkBytes] at update'
  refine ⟨final, ?_, done.size, pads'.1.trans pads.1, pads'.2.trans pads.2⟩
  rw [sha1Finish]
  rw [padn_eq hashing, update, Exec.ok_bind, msglen_eq hashing, update', Exec.ok_bind]
  have digest := done.state
  rw [List.append_assoc] at digest
  rw [Hash.sha1, padding, ← digest]
  simp only [putUlongBe_eq]
  rfl

end Update

end M2Handler.Sha1

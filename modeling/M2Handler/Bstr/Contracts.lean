import M2Handler.Bstr.Bstring

/-!
# What the string functions return

One statement for each function, over strings that own their block.  Copying
succeeds below `INT_MAX` bytes.  Appending succeeds below that total, fails
above it, and at exactly that total writes behind the block.  Formatting
succeeds up to `2 ^ 30 - 2` bytes and returns the null pointer above, because
the loop doubles the size once more before it stops.  A comparison ends at a NUL
that both strings have at one place.
-/

namespace M2Handler.Bstr

open Machine Text

/-- A string with room for its NUL in a block that it may reallocate. -/
structure Owned (b : Bstring) : Prop where
  room : (b.data.length : Int) < b.mlen
  mlen_le : b.mlen ≤ 2147483647

/-- The run returns an owned string with these bytes. -/
def Makes (run : Exec (Option Bstring)) (data : Bytes) : Prop :=
  ∃ b, run = .ok (some b) ∧ Owned b ∧ b.data = data

/-! ## Allocation -/

theorem snapUpSize_bounds {i : Int} (fits : i ≤ 2147483647) :
    i ≤ snapUpSize i ∧ 0 < snapUpSize i ∧ snapUpSize i ≤ 2147483647 := by
  unfold snapUpSize
  split
  · omega
  · dsimp only
    split
    · rename_i _ grown
      have bounded := (isInt_toInt (leastPower (UInt32.ofNat i.toNat)).toNat).2
      unfold intMax at bounded
      exact ⟨grown, by omega, bounded⟩
    · omega

theorem blockSize_bounds {j : Int} (nonneg : 0 ≤ j) (fits : j < 2147483647) :
    j < blockSize j ∧ 0 < blockSize j ∧ blockSize j ≤ 2147483647 := by
  unfold blockSize
  have unwrapped : toInt (j + (2 - if j ≠ 0 then 1 else 0)) =
      j + (2 - if j ≠ 0 then 1 else 0) := by
    apply toInt_eq
    unfold IsInt intMin intMax
    split <;> omega
  rw [unwrapped]
  have bounds := snapUpSize_bounds (i := j + (2 - if j ≠ 0 then 1 else 0)) (by split <;> omega)
  split at bounds <;> split <;> omega

theorem stored_eq (mlen : Int) (data : Bytes) (room : (data.length : Int) < mlen)
    (fits : mlen ≤ 2147483647) :
    ∃ b, stored mlen data = .ok b ∧ Owned b ∧ b.mlen = mlen ∧ b.data = data :=
  ⟨⟨mlen, data, by omega⟩, dif_pos ⟨room, fits⟩, ⟨room, fits⟩, rfl, rfl⟩

theorem stored_full {mlen : Int} {data : Bytes} (full : mlen ≤ data.length) :
    stored mlen data = .error .outOfBounds :=
  dif_neg (by omega)

/-- Growing an owned string to a positive size keeps its bytes. -/
theorem balloc_eq {b : Bstring} (owned : Owned b) (olen : Int) (positive : 0 < olen)
    (fits : olen ≤ 2147483647) :
    ∃ grown, balloc b olen = (0, grown) ∧ Owned grown ∧ grown.data = b.data ∧
      olen ≤ grown.mlen := by
  obtain ⟨room, small⟩ := owned
  have bounds := snapUpSize_bounds fits
  unfold balloc Bstring.slen
  rw [if_neg (by omega)]
  split
  · dsimp only
    split
    · exact ⟨b, rfl, ⟨room, small⟩, rfl, by omega⟩
    · exact ⟨_, rfl, ⟨by dsimp only; omega, by dsimp only; omega⟩, rfl, by dsimp only; omega⟩
  · exact ⟨b, rfl, ⟨room, small⟩, rfl, by omega⟩

theorem balloc_refuses {b : Bstring} {olen : Int} (notPositive : olen ≤ 0) :
    balloc b olen = (-1, b) :=
  if_pos (.inr (.inr notPositive))

/-! ## Copies -/

theorem bfromcstr_empty : Makes (bfromcstr (some [])) [] :=
  ⟨⟨8, [], by decide⟩, by rfl, ⟨by decide, by decide⟩, rfl⟩

theorem blk2bstr_eq (block : Bytes) (len : Int) (nonneg : 0 ≤ len) (short : len < 2147483647)
    (inside : len ≤ block.length) :
    Makes (blk2bstr (some block) len) (block.take len.toNat) := by
  have bounds := blockSize_bounds nonneg short
  have read : readBlock block 0 len.toNat = .ok (block.take len.toNat) := by
    unfold readBlock
    split
    · rename_i zero
      rw [zero, List.take_zero]
    · rw [if_pos ⟨by omega, by omega⟩]
      rfl
  have count : (block.take len.toNat).length = len.toNat := by
    rw [List.length_take]
    omega
  obtain ⟨b, made, owned, _, bytes⟩ := stored_eq (blockSize len)
    (block.take len.toNat) (by omega) bounds.2.2
  refine ⟨b, ?_, owned, bytes⟩
  rw [blk2bstr, if_neg (by omega), read, Exec.ok_bind, made]
  rfl

/-- A block of `INT_MAX` bytes is copied into a block of eight. -/
theorem blk2bstr_longest {block : Bytes} (longest : block.length = 2147483647) :
    blk2bstr (some block) 2147483647 = .error .outOfBounds := by
  have wrapped : blockSize 2147483647 = 8 := by decide
  have read : readBlock block 0 (2147483647 : Int).toNat = .ok block := by
    have count : (2147483647 : Int).toNat = block.length := by
      rw [longest]
      rfl
    have whole := readBlock_append [] block []
    rw [count]
    simpa using whole
  rw [blk2bstr, if_neg (by decide), read, Exec.ok_bind, wrapped,
    stored_full (by rw [longest]; decide)]
  rfl

theorem bstrcpy_eq (b : Bstring) (short : b.data.length < 2147483647) :
    Makes (bstrcpy (some b)) b.data := by
  have unwrapped : toInt (b.slen + 1) = b.data.length + 1 := by
    apply toInt_eq
    unfold IsInt intMin intMax Bstring.slen
    omega
  have bounds := snapUpSize_bounds (i := (b.data.length : Int) + 1) (by omega)
  obtain ⟨copy, made, owned, _, bytes⟩ := stored_eq (snapUpSize (toInt (b.slen + 1)))
    b.data (by rw [unwrapped]; omega) (by rw [unwrapped]; omega)
  refine ⟨copy, ?_, owned, bytes⟩
  rw [bstrcpy, made]
  rfl

/-- A string of `INT_MAX` bytes is copied into a block of eight. -/
theorem bstrcpy_longest (b : Bstring) (longest : b.data.length = 2147483647) :
    bstrcpy (some b) = .error .outOfBounds := by
  have wrapped : snapUpSize (toInt (b.slen + 1)) = 8 := by
    rw [Bstring.slen, longest]
    decide
  rw [bstrcpy, wrapped, stored_full (by omega)]
  rfl

theorem bfromcstr_eq (str : Bytes) (short : str.length < 2147483647) :
    Makes (bfromcstr (some str)) str := by
  have bounds := blockSize_bounds (j := (str.length : Int)) (by omega) (by omega)
  obtain ⟨b, made, owned, _, bytes⟩ := stored_eq (blockSize str.length) str (by omega) (by omega)
  refine ⟨b, ?_, owned, bytes⟩
  have fits : ¬ blockSize str.length ≤ toInt str.length := by
    rw [toInt_of_nat (by omega)]
    omega
  rw [bfromcstr, if_neg fits, made]
  rfl

/-- A text of `INT_MAX` bytes or more is not copied. -/
theorem bfromcstr_long (str : Bytes) (long : 2147483647 ≤ str.length) :
    bfromcstr (some str) =
      if blockSize str.length ≤ toInt str.length then .ok none else .error .outOfBounds := by
  rw [bfromcstr]
  split
  · rfl
  · have full : stored (blockSize str.length) str = .error .outOfBounds :=
      dif_neg (by omega)
    rw [full]
    rfl

/-- The copy holds the text, or is null as the text is. -/
theorem bfromcstr_bdata {str : Option Bytes}
    (short : ∀ text, str = some text → text.length < 2147483647) :
    ∃ b, bfromcstr str = .ok b ∧ bdata b = str := by
  cases str with
  | none => exact ⟨none, rfl, rfl⟩
  | some text =>
      obtain ⟨b, made, -, bytes⟩ := bfromcstr_eq text (short text rfl)
      exact ⟨some b, made, congrArg some bytes⟩

/-- The bytes from `left` on, at most `len` of them. -/
theorem bmidstr_eq (trapv : Bool) (b : Bstring) (left len : Int) (nonneg : 0 ≤ left)
    (fits : left ≤ 2147483647) (short : min len (b.slen - left) < 2147483647) :
    Makes (bmidstr trapv (some b) left len) ((b.data.drop left.toNat).take len.toNat) := by
  have sized := b.fits
  have rest : arith trapv (b.slen - left) = .ok (b.slen - left) := by
    apply arith_eq
    unfold IsInt intMin intMax Bstring.slen
    omega
  have clamp : (if len > b.slen - left then b.slen - left else len) = min len (b.slen - left) := by
    split <;> omega
  have dropped : (b.data.drop left.toNat).length = b.data.length - left.toNat :=
    List.length_drop
  rw [bmidstr, if_neg (by omega)]
  simp only [Exec.pure_bind]
  rw [rest, Exec.ok_bind, clamp]
  unfold Bstring.slen at *
  split
  · rename_i empty
    have nothing : (b.data.drop left.toNat).take len.toNat = [] := by
      apply List.eq_nil_of_length_eq_zero
      rw [List.length_take]
      omega
    rw [nothing]
    exact bfromcstr_empty
  · rename_i some
    have all : (b.data.drop left.toNat).take (min len (b.data.length - left)).toNat =
        (b.data.drop left.toNat).take len.toNat := by
      rw [List.take_eq_take_iff]
      omega
    rw [← all]
    exact blk2bstr_eq _ _ (by omega) (by omega) (by omega)

/-- Nothing is left of a range that ends in front of the string. -/
theorem bmidstr_before (trapv : Bool) (b : Bstring) {left len : Int} (negative : left < 0)
    (sum : IsInt (len + left)) (nothing : len + left ≤ 0) :
    Makes (bmidstr trapv (some b) left len) [] := by
  have sized := b.fits
  have rest : arith trapv (b.slen - 0) = .ok (b.slen - 0) := by
    apply arith_eq
    unfold IsInt intMin intMax Bstring.slen
    omega
  rw [bmidstr, if_pos negative, arith_eq _ sum, Exec.ok_bind, Exec.pure_bind]
  dsimp only
  rw [rest, Exec.ok_bind, if_pos]
  · exact bfromcstr_empty
  · unfold Bstring.slen
    split <;> omega

/-- A string of `INT_MAX` bytes is cut into a block of eight. -/
theorem bmidstr_longest (trapv : Bool) {b : Bstring} (longest : b.data.length = 2147483647) :
    bmidstr trapv (some b) 0 2147483647 = .error .outOfBounds := by
  have rest : arith trapv (b.slen - 0) = .ok 2147483647 := by
    rw [Bstring.slen, longest]
    exact arith_eq trapv (by decide)
  have whole : (b.data.drop (0 : Int).toNat).length = 2147483647 := by
    rw [Int.toNat_zero, List.drop_zero, longest]
  rw [bmidstr, if_neg (by decide), Exec.pure_bind]
  dsimp only
  rw [rest, Exec.ok_bind, if_neg (by decide), if_neg (by decide)]
  exact blk2bstr_longest whole

/-- What `stored` returns is owned. -/
theorem owned_of_stored {mlen : Int} {data : Bytes} {b : Bstring}
    (made : stored mlen data = .ok b) : Owned b := by
  rw [stored] at made
  split at made
  · rename_i room
    cases made
    exact ⟨room.1, room.2⟩
  · cases made

/-- A cut is a string of its own. -/
theorem owned_of_bmidstr {trapv : Bool} {b : Option Bstring} {left len : Int} {text : Bstring}
    (cut : bmidstr trapv b left len = .ok (some text)) : Owned text := by
  cases b with
  | none => cases cut
  | some b =>
      -- Both branches for `left` go on with the same steps.
      have ends {start count : Int} (made : (do
          let rest ← arith trapv (b.slen - start)
          let count := if count > rest then rest else count
          if count ≤ 0 then bfromcstr (some [])
          else blk2bstr (some (b.data.drop start.toNat)) count) = .ok (some text)) :
          Owned text := by
        obtain ⟨rest, -, made⟩ := Exec.bind_eq_ok.mp made
        dsimp only at made
        generalize (if count > rest then rest else count) = count at made
        split at made
        · obtain ⟨empty, cut, owned, -⟩ := bfromcstr_empty
          rw [cut] at made
          cases made
          exact owned
        · rw [blk2bstr] at made
          split at made
          · cases made
          · obtain ⟨bytes, -, made⟩ := Exec.bind_eq_ok.mp made
            obtain ⟨held, stores, same⟩ := Exec.bind_eq_ok.mp made
            cases same
            exact owned_of_stored stores
      rw [bmidstr] at cut
      split at cut
      · obtain ⟨count, -, cut⟩ := Exec.bind_eq_ok.mp cut
        exact ends cut
      · exact ends cut

/-! ## Comparison -/

theorem signedDifference_eq_zero_iff (c0 c1 : UInt8) :
    c0.toInt8.toInt - c1.toInt8.toInt = 0 ↔ c0 = c1 := by
  constructor
  · intro zero
    have sameInt : c0.toInt8.toInt = c1.toInt8.toInt := by omega
    have same : c0.toInt8 = c1.toInt8 := Int8.toInt_inj.mp sameInt
    rw [← UInt8.toUInt8_toInt8 c0, same, UInt8.toUInt8_toInt8]
  · rintro rfl
    exact Int.sub_self _

def SameText (b0 b1 : Bytes) : Prop :=
  b0 = b1 ∨ ∃ front rest0 rest1, b0 = front ++ 0 :: rest0 ∧ b1 = front ++ 0 :: rest1

theorem sameText_cons_iff {c0 c1 : UInt8} {rest0 rest1 : Bytes} :
    SameText (c0 :: rest0) (c1 :: rest1) ↔ c0 = c1 ∧ (c0 = 0 ∨ SameText rest0 rest1) := by
  constructor
  · rintro (whole | ⟨front, after0, after1, first, second⟩)
    · cases whole
      exact ⟨rfl, .inr (.inl rfl)⟩
    · cases front with
      | nil =>
          cases first
          cases second
          exact ⟨rfl, .inl rfl⟩
      | cons byte front =>
          cases first
          cases second
          exact ⟨rfl, .inr (.inr ⟨front, after0, after1, rfl, rfl⟩)⟩
  · rintro ⟨rfl, rfl | rfl | ⟨front, after0, after1, rfl, rfl⟩⟩
    · exact .inr ⟨[], rest0, rest1, rfl, rfl⟩
    · exact .inl rfl
    · exact .inr ⟨c0 :: front, after0, after1, rfl, rfl⟩

theorem SameText.eq_of_nulFree {b0 b1 : Bytes} (same : SameText b0 b1) (nulFree : Absent 0 b1) :
    b0 = b1 := by
  obtain whole | ⟨front, rest0, rest1, -, cut⟩ := same
  · exact whole
  · exact absurd rfl (nulFree 0 (by rw [cut]; simp))

theorem bstrcmpLoop_eq_zero_iff (b0 b1 : Bytes) : bstrcmpLoop b0 b1 = 0 ↔ SameText b0 b1 := by
  induction b0 generalizing b1 with
  | nil => cases b1 <;> simp [bstrcmpLoop, SameText]
  | cons c0 rest0 ih =>
      cases b1 with
      | nil => simp [bstrcmpLoop, SameText]
      | cons c1 rest1 =>
          have zero := signedDifference_eq_zero_iff c0 c1
          rw [bstrcmpLoop, sameText_cons_iff]
          by_cases same : c0 = c1
          · rw [if_neg (not_not.mpr (zero.mpr same))]
            by_cases ends : c0 = 0
            · rw [if_pos ends]
              exact ⟨fun _ => ⟨same, .inl ends⟩, fun _ => rfl⟩
            · rw [if_neg ends, ih]
              exact ⟨fun rest => ⟨same, .inr rest⟩, fun whole => whole.2.resolve_left ends⟩
          · rw [if_pos (mt zero.mp same)]
            exact ⟨fun equal => absurd (zero.mp equal) same, fun whole => absurd whole.1 same⟩

/-- Against a string without NUL, equality decides. -/
theorem bstrcmp_eq_zero_iff (b0 : Option Bstring) {b1 : Bstring} (nulFree : Absent 0 b1.data) :
    bstrcmp b0 (some b1) = 0 ↔ bdata b0 = some b1.data := by
  cases b0 with
  | none => simp [bstrcmp, bdata, shrtMin]
  | some b0 =>
      rw [bstrcmp, bstrcmpLoop_eq_zero_iff, bdata, Option.some.injEq]
      exact ⟨fun same => same.eq_of_nulFree nulFree, .inl⟩

/-! ## Appending -/

section Concat

variable {b0 : Bstring} (owned : Owned b0) (b1 : Bstring)

theorem bconcat_refuses (tooLong : 2147483647 < b0.data.length + b1.data.length) :
    bconcat (some b0) (some b1) = .ok (-1, some b0) := by
  have first := b0.fits
  have second := b1.fits
  have negative : toInt (b0.slen + b1.slen) < 0 := by
    unfold toInt Bstring.slen
    omega
  rw [bconcat, if_pos (.inr (.inr (.inr negative)))]
  rfl

include owned

theorem bconcat_eq (fits : b0.data.length + b1.data.length < 2147483647) :
    ∃ b, bconcat (some b0) (some b1) = .ok (0, some b) ∧ Owned b ∧
      b.data = b0.data ++ b1.data := by
  obtain ⟨room, small⟩ := owned
  have spare : toInt (b0.mlen - b0.slen) = b0.mlen - b0.data.length := by
    apply toInt_eq
    unfold IsInt intMin intMax Bstring.slen
    omega
  have total : toInt (b0.slen + b1.slen) = b0.data.length + b1.data.length := by
    apply toInt_eq
    unfold IsInt intMin intMax Bstring.slen
    omega
  have next : toInt (b0.slen + b1.slen + 1) = b0.data.length + b1.data.length + 1 := by
    apply toInt_eq
    unfold IsInt intMin intMax Bstring.slen
    omega
  have accepted : ¬ (b0.slen < 0 ∨ toInt (b0.mlen - b0.slen) < 0 ∨ b1.slen < 0 ∨
      toInt (b0.slen + b1.slen) < 0) := by
    rw [spare, total]
    unfold Bstring.slen
    omega
  have grows : ∃ grown, (if b0.mlen ≤ toInt (b0.slen + b1.slen + 1) then
      balloc b0 (toInt (b0.slen + b1.slen + 1)) else (0, b0)) = (0, grown) ∧
        Owned grown ∧ grown.data = b0.data ∧
        (b0.data.length + b1.data.length : Int) < grown.mlen := by
    rw [next]
    split
    · obtain ⟨grown, made, grownOwned, bytes, enough⟩ := balloc_eq ⟨room, small⟩
        (b0.data.length + b1.data.length + 1) (by omega) (by omega)
      exact ⟨grown, made, grownOwned, bytes, by omega⟩
    · exact ⟨b0, rfl, ⟨room, small⟩, rfl, by omega⟩
  obtain ⟨grown, made, grownOwned, bytes, enough⟩ := grows
  obtain ⟨joined, joinedEq, joinedOwned, _, joinedBytes⟩ := stored_eq
    grown.mlen (grown.data ++ b1.data)
    (by rw [bytes, List.length_append]; omega) grownOwned.mlen_le
  refine ⟨joined, ?_, joinedOwned, by rw [joinedBytes, bytes]⟩
  rw [bconcat, if_neg accepted, made]
  simp only [ne_eq, not_true_eq_false, if_false]
  rw [joinedEq]
  rfl

/-- At `INT_MAX` bytes the size that is asked for wraps, so the block does not
grow, and the bytes are written behind it. -/
theorem bconcat_overruns (longest : b0.data.length + b1.data.length = 2147483647) :
    bconcat (some b0) (some b1) = .error .outOfBounds := by
  obtain ⟨room, small⟩ := owned
  have spare : toInt (b0.mlen - b0.slen) = b0.mlen - b0.data.length := by
    apply toInt_eq
    unfold IsInt intMin intMax Bstring.slen
    omega
  have total : b0.slen + b1.slen = 2147483647 := by
    unfold Bstring.slen
    omega
  have accepted : ¬ (b0.slen < 0 ∨ toInt (b0.mlen - b0.slen) < 0 ∨ b1.slen < 0 ∨
      toInt (b0.slen + b1.slen) < 0) := by
    rw [spare, total, toInt_eq (by decide)]
    unfold Bstring.slen
    omega
  have wrapped : toInt ((2147483647 : Int) + 1) = -2147483648 := by
    decide
  rw [bconcat, if_neg accepted, total, wrapped, if_neg (by omega)]
  simp only [ne_eq, not_true_eq_false, if_false]
  rw [stored_full (by rw [List.length_append]; omega)]
  rfl

/-- What appending returns, for any second string. -/
theorem bconcat_inv {b1 : Option Bstring} {code : Int} {after : Option Bstring}
    (returned : bconcat (some b0) b1 = .ok (code, after)) :
    ∃ b, after = some b ∧ Owned b ∧
      ((∃ x, b1 = some x ∧ code = 0 ∧ b.data = b0.data ++ x.data ∧
          b0.data.length + x.data.length < 2147483647) ∨
        (b = b0 ∧ code = -1 ∧
          (b1 = none ∨ ∃ x, b1 = some x ∧ 2147483647 < b0.data.length + x.data.length))) := by
  cases b1 with
  | none =>
      cases returned
      exact ⟨b0, rfl, owned, .inr ⟨rfl, rfl, .inl rfl⟩⟩
  | some x =>
      obtain fits | longest | tooLong := lt_trichotomy (b0.data.length + x.data.length) 2147483647
      · obtain ⟨b, joined, joinedOwned, bytes⟩ := bconcat_eq owned x fits
        rw [joined] at returned
        cases returned
        exact ⟨b, rfl, joinedOwned, .inl ⟨x, rfl, rfl, bytes, fits⟩⟩
      · rw [bconcat_overruns owned x longest] at returned
        cases returned
      · rw [bconcat_refuses x tooLong] at returned
        cases returned
        exact ⟨b0, rfl, owned, .inr ⟨rfl, rfl, .inr ⟨x, rfl, tooLong⟩⟩⟩

end Concat

section Character

variable {b : Bstring} (owned : Owned b)
include owned

theorem bconchar_eq (c : UInt8) (short : b.data.length + 1 < 2147483647) :
    ∃ b', bconchar (some b) c = .ok (0, some b') ∧ Owned b' ∧ b'.data = b.data ++ [c] := by
  obtain ⟨room, small⟩ := owned
  have spare : toInt (b.mlen - b.slen) = b.mlen - b.data.length := by
    apply toInt_eq
    unfold IsInt intMin intMax Bstring.slen
    omega
  have next : toInt (b.slen + 2) = b.data.length + 2 := by
    apply toInt_eq
    unfold IsInt intMin intMax Bstring.slen
    omega
  have accepted : ¬ (b.slen < 0 ∨ toInt (b.mlen - b.slen) < 0) := by
    rw [spare]
    unfold Bstring.slen
    omega
  obtain ⟨grown, made, grownOwned, bytes, enough⟩ := balloc_eq ⟨room, small⟩
    (b.data.length + 2) (by omega) (by omega)
  obtain ⟨b', stored', owned', _, bytes'⟩ := stored_eq grown.mlen (grown.data ++ [c])
    (by rw [bytes, List.length_append, List.length_singleton]; omega) grownOwned.mlen_le
  refine ⟨b', ?_, owned', by rw [bytes', bytes]⟩
  rw [bconchar]
  dsimp only
  rw [if_neg accepted, next, made]
  simp only [ne_eq, not_true_eq_false, if_false]
  rw [stored']
  rfl

end Character

/-- The end of `bcatblk`, once the block is large enough. -/
theorem bcatblk_grown {b grown : Bstring} {len total : Int} (rest : Bytes)
    (accepted : ¬ (b.mlen < b.slen ∨ b.mlen ≤ 0 ∨ len < 0)) (sum : toInt (b.slen + len) = total)
    (nonneg : ¬ total < 0)
    (made : (if b.mlen ≤ total then balloc b (toInt (total + 1)) else (0, b)) = (0, grown)) :
    bcatblk (some b) rest len = (do
      let bytes ← readBlock rest 0 len.toNat
      let b ← stored grown.mlen (grown.data ++ bytes)
      return (0, some b)) := by
  rw [bcatblk]
  dsimp only
  rw [if_neg accepted, sum, if_neg nonneg, made]
  rfl

/-- The other ends of `bcatblk`: the total is no `int`, or the block cannot grow. -/
theorem bcatblk_fails {b : Bstring} {len : Int} (rest : Bytes)
    (accepted : ¬ (b.mlen < b.slen ∨ b.mlen ≤ 0 ∨ len < 0))
    (refused : toInt (b.slen + len) < 0 ∨ ∃ total, toInt (b.slen + len) = total ∧ ¬ total < 0 ∧
      (if b.mlen ≤ total then balloc b (toInt (total + 1)) else (0, b)) = (-1, b)) :
    bcatblk (some b) rest len = .ok (-1, some b) := by
  rw [bcatblk]
  dsimp only
  obtain negative | ⟨total, sum, nonneg, failed⟩ := refused
  · rw [if_neg accepted, if_pos negative, Exec.pure_eq_ok]
  · rw [if_neg accepted, sum, if_neg nonneg, failed]
    rfl

section Full

variable {b : Bstring} (full : (b.data.length : Int) = b.mlen) (positive : 0 < b.mlen)
  (rest : Bytes)
include full positive

/-- Appending to a string that fills its block grows the block. -/
theorem bcatblk_full (fits : b.data.length + rest.length < 2147483647) :
    ∃ b', bcatblk (some b) rest rest.length = .ok (0, some b') ∧ Owned b' ∧
      b'.data = b.data ++ rest := by
  have accepted : ¬ (b.mlen < b.slen ∨ b.mlen ≤ 0 ∨ (rest.length : Int) < 0) := by
    unfold Bstring.slen
    omega
  have total : toInt (b.slen + rest.length) = b.data.length + rest.length := by
    apply toInt_eq
    unfold IsInt intMin intMax Bstring.slen
    omega
  have next : toInt ((b.data.length : Int) + rest.length + 1) =
      b.data.length + rest.length + 1 := by
    apply toInt_eq
    unfold IsInt intMin intMax
    omega
  have bounds := snapUpSize_bounds (i := (b.data.length : Int) + rest.length + 1) (by omega)
  have grows : ∃ grown, (if b.mlen ≤ (b.data.length : Int) + rest.length then
      balloc b (toInt ((b.data.length : Int) + rest.length + 1)) else (0, b)) = (0, grown) ∧
        grown.data = b.data ∧ grown.mlen = snapUpSize (b.data.length + rest.length + 1) := by
    refine ⟨{ b with mlen := snapUpSize (b.data.length + rest.length + 1) }, ?_, rfl, rfl⟩
    rw [if_pos (by omega), next]
    unfold balloc Bstring.slen
    rw [if_neg (by omega), if_pos (by omega)]
    dsimp only
    rw [if_neg (by omega)]
  obtain ⟨grown, made, bytes, size⟩ := grows
  obtain ⟨b', stored', owned', _, bytes'⟩ := stored_eq grown.mlen (grown.data ++ rest)
    (by rw [bytes, List.length_append]; omega) (by omega)
  have read : readBlock rest 0 rest.length = .ok rest := by
    have whole := readBlock_append [] rest []
    rwa [List.nil_append, List.append_nil] at whole
  refine ⟨b', ?_, owned', by rw [bytes', bytes]⟩
  rw [bcatblk_grown rest accepted total (by omega) made, Int.toNat_natCast, read, Exec.ok_bind,
    stored', Exec.ok_bind, Exec.pure_eq_ok]

/-- From `INT_MAX` bytes on the total is not an `int` with room for a NUL. -/
theorem bcatblk_refuses (size : rest.length ≤ 2147483647)
    (long : 2147483647 ≤ b.data.length + rest.length) :
    bcatblk (some b) rest rest.length = .ok (-1, some b) := by
  have small := b.fits
  have accepted : ¬ (b.mlen < b.slen ∨ b.mlen ≤ 0 ∨ (rest.length : Int) < 0) := by
    unfold Bstring.slen
    omega
  refine bcatblk_fails rest accepted ?_
  by_cases longest : b.data.length + rest.length = 2147483647
  · have total : b.slen + rest.length = 2147483647 := by
      unfold Bstring.slen
      omega
    have wrapped : toInt ((2147483647 : Int) + 1) ≤ 0 := by decide
    refine .inr ⟨2147483647, ?_, by decide, ?_⟩
    · rw [total]
      exact toInt_eq (by decide)
    · rw [if_pos (by omega), balloc_refuses wrapped]
  · left
    unfold toInt Bstring.slen
    omega

end Full

section CString

variable {b : Bstring} (owned : Owned b)
include owned

/-- Appending a C string in two parts: first what the block has room for. -/
theorem bcatcstr_split (s : Bytes) (size : s.length ≤ 2147483647)
    (more : b.mlen - b.data.length ≤ s.length) :
    ∃ (filled : Bstring) (rest : Bytes), (filled.data.length : Int) = filled.mlen ∧
      0 < filled.mlen ∧ filled.data ++ rest = b.data ++ s ∧ rest.length ≤ s.length ∧
      bcatcstr (some b) (some s) = bcatblk (some filled) rest rest.length := by
  obtain ⟨room, small⟩ := owned
  have taken : (s.take (b.mlen - b.slen).toNat).length = (b.mlen - b.slen).toNat := by
    rw [List.length_take]
    unfold Bstring.slen
    omega
  have dropped : (s.drop (b.mlen - b.slen).toNat).length ≤ s.length := by
    rw [List.length_drop]
    omega
  have length : (b.data ++ s.take (b.mlen - b.slen).toNat).length ≤ 2147483647 := by
    rw [List.length_append, taken]
    unfold Bstring.slen
    omega
  have accepted : ¬ (b.mlen < b.slen ∨ b.mlen ≤ 0) := by
    unfold Bstring.slen
    omega
  have notShort : ¬ s.length < (b.mlen - b.slen).toNat := by
    unfold Bstring.slen
    omega
  refine ⟨⟨b.mlen, _, length⟩, s.drop (b.mlen - b.slen).toNat, ?_, by dsimp only; omega, ?_,
    dropped, ?_⟩
  · dsimp only
    rw [List.length_append, taken]
    unfold Bstring.slen
    omega
  · rw [List.append_assoc, List.take_append_drop]
  · rw [bcatcstr]
    dsimp only
    rw [if_neg accepted, if_neg notShort, dif_pos length, toInt_of_nat (by omega)]

theorem bcatcstr_eq (s : Bytes) (fits : b.data.length + s.length < 2147483647) :
    ∃ b', bcatcstr (some b) (some s) = .ok (0, some b') ∧ Owned b' ∧ b'.data = b.data ++ s := by
  by_cases more : b.mlen - b.data.length ≤ s.length
  · obtain ⟨filled, rest, full, positive, whole, _, split⟩ :=
      bcatcstr_split owned s (by omega) more
    have total := congrArg List.length whole
    rw [List.length_append, List.length_append] at total
    rw [split, ← whole]
    exact bcatblk_full full positive rest (by omega)
  · obtain ⟨room, small⟩ := owned
    have accepted : ¬ (b.mlen < b.slen ∨ b.mlen ≤ 0) := by
      unfold Bstring.slen
      omega
    have short : s.length < (b.mlen - b.slen).toNat := by
      unfold Bstring.slen
      omega
    obtain ⟨b', stored', owned', _, bytes'⟩ := stored_eq b.mlen (b.data ++ s)
      (by rw [List.length_append]; omega) small
    refine ⟨b', ?_, owned', bytes'⟩
    rw [bcatcstr]
    dsimp only
    rw [if_neg accepted, if_pos short, stored']
    rfl

theorem bcatcstr_refuses (s : Bytes) (size : s.length ≤ 2147483647)
    (long : 2147483647 ≤ b.data.length + s.length) :
    ∃ b', bcatcstr (some b) (some s) = .ok (-1, some b') := by
  obtain ⟨filled, rest, full, positive, whole, shorter, split⟩ :=
    bcatcstr_split owned s size (by have := owned.mlen_le; omega)
  have total := congrArg List.length whole
  rw [List.length_append, List.length_append] at total
  exact ⟨filled, split.trans (bcatblk_refuses full positive rest (by omega) (by omega))⟩

end CString

/-! ## Formatting -/

section Format

variable {output : Bytes} (nulFree : Absent 0 output)
include nulFree

/-- The bytes that one round stores. -/
theorem cString_take (count : Nat) : cString (output.take count) = output.take count :=
  cString_eq fun byte member => nulFree byte (List.mem_of_mem_take member)

/-- A round whose size exceeds the output is the last one. -/
theorem bformatLoop_last {n : Int} {buff : Bstring} (fuel : Nat)
    (fitsBuffer : n < buff.mlen) (small : buff.mlen ≤ 2147483647) (enough : output.length < n) :
    Makes (bformatLoop output (fuel + 1) n buff) output := by
  have whole : cString (output.take n.toNat) = output := by
    rw [cString_take nulFree, List.take_of_length_le (by omega)]
  obtain ⟨b, made, owned, _, bytes⟩ := stored_eq buff.mlen output
    (by omega) small
  refine ⟨b, ?_, owned, bytes⟩
  have shorter : b.slen < n := by
    rw [Bstring.slen, bytes]
    exact enough
  rw [bformatLoop, if_neg (by simpa using fitsBuffer), whole, made, Exec.ok_bind, if_pos shorter]
  rfl

/-- A round whose size does not exceed the output takes the larger one of the
returned length and the doubled size. -/
theorem bformatLoop_next {n : Int} {buff : Bstring} (fuel : Nat) (positive : 0 < n)
    (fitsBuffer : n < buff.mlen) (small : buff.mlen ≤ 2147483647) (short : n ≤ output.length) :
    let r : Int := if (output.length : Int) ≤ intMax then output.length else -1
    let next := if r > n then r else toInt (n + n)
    (toInt (next + 2) ≤ 0 → bformatLoop output (fuel + 1) n buff = .ok none) ∧
    (0 < toInt (next + 2) → ∃ grown, Owned grown ∧ toInt (next + 2) ≤ grown.mlen ∧
      bformatLoop output (fuel + 1) n buff = bformatLoop output fuel next grown) := by
  intro r next
  have count : (output.take n.toNat).length = n.toNat := by
    rw [List.length_take]
    omega
  obtain ⟨b, made, owned, _, bytes⟩ := stored_eq buff.mlen
    (output.take n.toNat) (by omega) small
  have notShorter : ¬ b.slen < n := by
    rw [Bstring.slen, bytes, count]
    omega
  have round : bformatLoop output (fuel + 1) n buff =
      if (balloc b (toInt (next + 2))).1 ≠ 0 then .ok none
      else bformatLoop output fuel next (balloc b (toInt (next + 2))).2 := by
    rw [bformatLoop, if_neg (by simpa using fitsBuffer), cString_take nulFree, made, Exec.ok_bind,
      if_neg notShorter]
    rfl
  constructor
  · intro notPositive
    rw [round, balloc_refuses notPositive, if_pos (by simp)]
  · intro grows
    obtain ⟨grown, grownEq, grownOwned, _, enough⟩ := balloc_eq owned _ grows
      (by have bound := (isInt_toInt (next + 2)).2; unfold intMax at bound; exact bound)
    refine ⟨grown, grownOwned, enough, ?_⟩
    rw [round, grownEq, if_neg (by simp)]

/-- When the length is not an `int` the size doubles until it is none either. -/
theorem bformatLoop_doubling (tooLong : 2147483647 < output.length) (fuel : Nat) :
    ∀ {n : Int} {buff : Bstring}, 0 < n → n < buff.mlen → buff.mlen ≤ 2147483647 →
      2147483648 ≤ n * 2 ^ fuel → bformatLoop output (fuel + 1) n buff = .ok none := by
  have failed : ¬ (output.length : Int) ≤ intMax := by
    unfold intMax
    omega
  induction fuel with
  | zero =>
      intro n buff _ fitsBuffer small large
      omega
  | succ fuel ih =>
      intro n buff positive fitsBuffer small large
      obtain ⟨stops, continues⟩ := bformatLoop_next nulFree (fuel + 1) positive fitsBuffer small
        (by omega)
      rw [if_neg failed, if_neg (by omega)] at stops continues
      by_cases wraps : toInt (toInt (n + n) + 2) ≤ 0
      · exact stops wraps
      · have exact : toInt (n + n) = n + n ∧ toInt (n + n + 2) = n + n + 2 := by
          unfold toInt at wraps ⊢
          omega
        obtain ⟨grown, grownOwned, enough, same⟩ := continues (by omega)
        rw [exact.1, exact.2] at enough
        rw [same, exact.1]
        have power : n * 2 ^ (fuel + 1) = (n + n) * 2 ^ fuel := by
          ring
        exact ih (by omega) (by omega) grownOwned.mlen_le (by omega)

/-- The size of the first round, for a format of ordinary length. -/
def firstSize (fmt : Bytes) : Int := max (2 * fmt.length) startVsnbuff

theorem bformat_start {fmt : Bytes} (ordinary : fmt.length ≤ 1000) :
    ∃ buff : Bstring, firstSize fmt < buff.mlen ∧ buff.mlen ≤ 2147483647 ∧
      bformat fmt output = bformatLoop output 64 (firstSize fmt) buff := by
  have _ := nulFree
  have first : (if toInt (2 * fmt.length) < startVsnbuff then startVsnbuff
      else toInt (2 * fmt.length)) = firstSize fmt := by
    rw [toInt_eq (by unfold IsInt intMin intMax; omega)]
    unfold firstSize startVsnbuff
    split <;> omega
  have bounds : 16 ≤ firstSize fmt ∧ firstSize fmt ≤ 2000 := by
    unfold firstSize startVsnbuff
    omega
  have size : toInt (firstSize fmt + 2) = firstSize fmt + 2 :=
    toInt_eq (by unfold IsInt intMin intMax; omega)
  have eight : blockSize 0 = 8 := by
    decide
  obtain ⟨buff, made, owned, mlen, _⟩ := stored_eq (firstSize fmt + 2) []
    (by simp only [List.length_nil]; omega) (by omega)
  have allocated : bfromcstralloc (firstSize fmt + 2) (some []) = .ok (some buff) := by
    rw [bfromcstralloc]
    simp only [List.length_nil, Nat.cast_zero, eight]
    rw [if_neg (by decide), if_pos (by omega), made]
    rfl
  refine ⟨buff, by omega, owned.mlen_le, ?_⟩
  rw [bformat, first, size, allocated]
  rfl

/-- Formatting returns the output up to `2 ^ 30 - 2` bytes. -/
theorem bformat_eq (fmt : Bytes) (ordinary : fmt.length ≤ 1000)
    (short : output.length ≤ 1073741822) : Makes (bformat fmt output) output := by
  obtain ⟨buff, fitsBuffer, small, start⟩ := bformat_start nulFree ordinary
  have bounds : 16 ≤ firstSize fmt ∧ firstSize fmt ≤ 2000 := by
    unfold firstSize startVsnbuff
    omega
  have length : ((if (output.length : Int) ≤ intMax then (output.length : Int) else -1)) =
      output.length :=
    if_pos (by unfold intMax; omega)
  rw [start]
  -- The round that stops is the first, the second or the third.
  by_cases first : (output.length : Int) < firstSize fmt
  · exact bformatLoop_last nulFree 63 fitsBuffer small first
  · obtain ⟨_, continues⟩ := bformatLoop_next nulFree 63 (by omega) fitsBuffer small
      (by omega : firstSize fmt ≤ output.length)
    rw [length] at continues
    by_cases longer : (output.length : Int) > firstSize fmt
    · have size : toInt ((output.length : Int) + 2) = output.length + 2 :=
        toInt_eq (by unfold IsInt intMin intMax; omega)
      rw [if_pos longer, size] at continues
      obtain ⟨grown, grownOwned, enough, same⟩ := continues (by omega)
      obtain ⟨_, again⟩ := bformatLoop_next nulFree 62 (n := output.length) (by omega) (by omega)
        grownOwned.mlen_le (by omega)
      have double : toInt ((output.length : Int) + output.length) =
          output.length + output.length :=
        toInt_eq (by unfold IsInt intMin intMax; omega)
      have doubleSize : toInt ((output.length : Int) + output.length + 2) =
          output.length + output.length + 2 :=
        toInt_eq (by unfold IsInt intMin intMax; omega)
      rw [length, if_neg (by omega), double, doubleSize] at again
      obtain ⟨larger, largerOwned, largerEnough, sameAgain⟩ := again (by omega)
      rw [same, sameAgain]
      exact bformatLoop_last nulFree 61 (by omega) largerOwned.mlen_le (by omega)
    · have double : toInt (firstSize fmt + firstSize fmt) = firstSize fmt + firstSize fmt :=
        toInt_eq (by unfold IsInt intMin intMax; omega)
      have doubleSize : toInt (firstSize fmt + firstSize fmt + 2) =
          firstSize fmt + firstSize fmt + 2 :=
        toInt_eq (by unfold IsInt intMin intMax; omega)
      rw [if_neg longer, double, doubleSize] at continues
      obtain ⟨grown, grownOwned, enough, same⟩ := continues (by omega)
      rw [same]
      exact bformatLoop_last nulFree 62 (by omega) grownOwned.mlen_le (by omega)

/-- A longer output is refused. -/
theorem bformat_refuses (fmt : Bytes) (ordinary : fmt.length ≤ 1000)
    (long : 1073741822 < output.length) : bformat fmt output = .ok none := by
  obtain ⟨buff, fitsBuffer, small, start⟩ := bformat_start nulFree ordinary
  have bounds : 16 ≤ firstSize fmt ∧ firstSize fmt ≤ 2000 := by
    unfold firstSize startVsnbuff
    omega
  rw [start]
  by_cases tooLong : 2147483647 < output.length
  · exact bformatLoop_doubling nulFree tooLong 63 (by omega) fitsBuffer small (by omega)
  · have length : ((if (output.length : Int) ≤ intMax then (output.length : Int) else -1)) =
        output.length :=
      if_pos (by unfold intMax; omega)
    obtain ⟨stops, continues⟩ := bformatLoop_next nulFree 63 (by omega) fitsBuffer small
      (by omega : firstSize fmt ≤ output.length)
    rw [length, if_pos (by omega)] at stops continues
    by_cases wraps : toInt ((output.length : Int) + 2) ≤ 0
    · exact stops wraps
    · obtain ⟨grown, grownOwned, enough, same⟩ := continues (by omega)
      obtain ⟨stopsAgain, _⟩ := bformatLoop_next nulFree 62 (n := output.length) (by omega)
        (by unfold toInt at wraps enough; omega) grownOwned.mlen_le (by omega)
      rw [length, if_neg (by omega)] at stopsAgain
      rw [same]
      exact stopsAgain (by unfold toInt at wraps ⊢; omega)

end Format

end M2Handler.Bstr

import M2Handler.Machine.ByteOrder
import Mathlib.Tactic.Common
import Mathlib.Algebra.Group.Basic

/-!
# Base64

The encoding of RFC 4648 with padding.  Three bytes are one group of 24 bits,
which four characters of six bits each spell.  The characters that an encoder
computes with shifts and masks are those of the group.
-/

namespace M2Handler.Text

open Machine

def base64Char (value : Nat) : UInt8 :=
  if value < 26 then UInt8.ofNat (65 + value)
  else if value < 52 then UInt8.ofNat (97 + (value - 26))
  else if value < 62 then UInt8.ofNat (48 + (value - 52))
  else if value = 62 then 43
  else 47

/-- The four values of a group of 24 bits, the most significant one first. -/
def sextets (group : Nat) : List Nat :=
  [group / 2 ^ 18, group / 2 ^ 12 % 64, group / 2 ^ 6 % 64, group % 64]

def groupOf (b0 b1 b2 : UInt8) : Nat := b0.toNat * 2 ^ 16 + b1.toNat * 2 ^ 8 + b2.toNat

def base64Text (values : List Nat) : Bytes := values.map base64Char

def base64 : Bytes → Bytes
  | b0 :: b1 :: b2 :: rest => base64Text (sextets (groupOf b0 b1 b2)) ++ base64 rest
  | [b0, b1] => base64Text ((sextets (groupOf b0 b1 0)).take 3) ++ [61]
  | [b0] => base64Text ((sextets (groupOf b0 0 0)).take 2) ++ [61, 61]
  | [] => []

/-- Four characters for every three bytes begun. -/
theorem length_base64 (data : Bytes) : (base64 data).length = 4 * ((data.length + 2) / 3) := by
  induction data using base64.induct with
  | case1 b0 b1 b2 rest ih =>
      simp only [base64, base64Text, sextets, List.length_append, List.length_map,
        List.length_cons, List.length_nil, ih]
      omega
  | case2 b0 b1 => simp [base64, base64Text, sextets]
  | case3 b0 => simp [base64, base64Text, sextets]
  | case4 => rfl

theorem base64Char_above (value : Nat) : 42 < base64Char value := by
  have small : ∀ value < 63, 42 < base64Char value := by decide
  by_cases below : value < 63
  · exact small value below
  · have last : base64Char value = 47 := by
      unfold base64Char
      rw [if_neg (by omega), if_neg (by omega), if_neg (by omega), if_neg (by omega)]
    rw [last]
    decide

theorem above_of_mem_base64Text {values : List Nat} {byte : UInt8}
    (member : byte ∈ base64Text values) : 42 < byte := by
  obtain ⟨value, -, rfl⟩ := List.mem_map.mp member
  exact base64Char_above value

/-- Every character is `+` or comes after it. -/
theorem above_of_mem_base64 {data : Bytes} {byte : UInt8} (member : byte ∈ base64 data) :
    42 < byte := by
  have pad {byte : UInt8} (member : byte ∈ ([61, 61] : Bytes)) : 42 < byte := by
    obtain rfl : byte = 61 := by simpa using member
    decide
  induction data using base64.induct with
  | case1 b0 b1 b2 rest ih =>
      rcases List.mem_append.mp member with front | back
      · exact above_of_mem_base64Text front
      · exact ih back
  | case2 b0 b1 =>
      rcases List.mem_append.mp member with front | back
      · exact above_of_mem_base64Text front
      · exact pad (List.mem_cons_of_mem _ back)
  | case3 b0 =>
      rcases List.mem_append.mp member with front | back
      · exact above_of_mem_base64Text front
      · exact pad back
  | case4 => cases member

/-- There are no line breaks and no NUL in Base64 text. -/
theorem absent_base64 (data : Bytes) {byte : UInt8} (control : byte ≤ 42) :
    Absent byte (base64 data) := by
  rintro other member rfl
  exact absurd (above_of_mem_base64 member) (UInt8.not_lt.mpr control)

/-! ## Shifts and masks -/

/-- The first six bits of a byte. -/
theorem toNat_shiftRight_two (b0 : UInt8) : (b0 >>> 2).toNat = b0.toNat / 4 := by
  rw [UInt8.toNat_shiftRight]
  exact Nat.shiftRight_eq_div_pow _ _

/-- The last six bits of a byte. -/
theorem toNat_and_sextet (b : UInt8) : (b &&& 0x3F).toNat = b.toNat % 64 := by
  rw [UInt8.toNat_and]
  exact Nat.and_two_pow_sub_one_eq_mod b.toNat 6

/-- A byte shifted left, with the first bits of the next byte in the places that
become free. -/
theorem toNat_shifted (b0 b1 : UInt8) {up down : Nat} (whole : up + down = 8) (left : 0 < up)
    (right : 0 < down) :
    ((b0 <<< UInt8.ofNat up) ||| (b1 >>> UInt8.ofNat down)).toNat =
      b0.toNat % 2 ^ down * 2 ^ up + b1.toNat / 2 ^ down := by
  have places {count : Nat} (small : count < 8) : (UInt8.ofNat count).toNat % 8 = count := by
    rw [UInt8.toNat_ofNat']
    omega
  have split : 2 ^ 8 = 2 ^ down * 2 ^ up := by
    rw [← pow_add, ← whole, Nat.add_comm]
  have free : b1.toNat / 2 ^ down < 2 ^ up := by
    rw [Nat.div_lt_iff_lt_mul (Nat.two_pow_pos down), Nat.mul_comm, ← split]
    exact b1.toNat_lt
  rw [UInt8.toNat_or, UInt8.toNat_shiftLeft, UInt8.toNat_shiftRight, places (by omega),
    places (by omega), Nat.shiftRight_eq_div_pow, Nat.shiftLeft_eq, split,
    Nat.mul_mod_mul_right, ← Nat.shiftLeft_eq, ← Nat.shiftLeft_add_eq_or_of_lt free,
    Nat.shiftLeft_eq]

/-- The four values of three bytes, as an encoder computes them. -/
theorem sextets_groupOf (b0 b1 b2 : UInt8) :
    sextets (groupOf b0 b1 b2) = [b0 >>> 2, ((b0 <<< 4) ||| (b1 >>> 4)) &&& 0x3F,
      ((b1 <<< 2) ||| (b2 >>> 6)) &&& 0x3F, b2 &&& 0x3F].map UInt8.toNat := by
  have first := b0.toNat_lt
  have second := b1.toNat_lt
  have third := b2.toNat_lt
  have upper : ((b0 <<< 4) ||| (b1 >>> 4)).toNat = b0.toNat % 2 ^ 4 * 2 ^ 4 + b1.toNat / 2 ^ 4 :=
    toNat_shifted b0 b1 rfl (by decide) (by decide)
  have lower : ((b1 <<< 2) ||| (b2 >>> 6)).toNat = b1.toNat % 2 ^ 6 * 2 ^ 2 + b2.toNat / 2 ^ 6 :=
    toNat_shifted b1 b2 rfl (by decide) (by decide)
  simp only [List.map_cons, List.map_nil, toNat_shiftRight_two, toNat_and_sextet, upper, lower,
    sextets, groupOf, List.cons.injEq, and_true]
  omega

/-- Every value has six bits. -/
theorem lt_of_mem_sextets {b0 b1 b2 : UInt8} {value : Nat}
    (member : value ∈ sextets (groupOf b0 b1 b2)) : value < 64 := by
  have first := b0.toNat_lt
  have second := b1.toNat_lt
  have third := b2.toNat_lt
  simp only [sextets, groupOf, List.mem_cons, List.not_mem_nil, or_false] at member
  omega

end M2Handler.Text

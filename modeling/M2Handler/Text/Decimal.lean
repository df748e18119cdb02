import M2Handler.Machine.ByteOrder
import Mathlib.Data.List.TakeWhile

/-!
# Decimal text

Printing and scanning of integers as `printf("%d")` and `sscanf("%d")` do it.
Scanning skips blanks, takes one sign and the longest run of digits, and does
not look at what follows; it is a left inverse of printing.
-/

namespace M2Handler.Text

open Machine

def ascii (char : Char) : UInt8 := UInt8.ofNat char.toNat

def asciiBytes (text : String) : Bytes := text.toList.map ascii

/-- The bytes before the first NUL: what a `char *` to this block means. -/
def cString (block : Bytes) : Bytes := block.takeWhile (· ≠ 0)

def isSpace (byte : UInt8) : Bool := byte = 32 || (9 ≤ byte && byte ≤ 13)

def isDigit (byte : UInt8) : Bool := 48 ≤ byte && byte ≤ 57

def digitByte (digit : Nat) : UInt8 := UInt8.ofNat (48 + digit)

def decimal (number : Nat) : Bytes := (Nat.toDigits 10 number).map ascii

def printInt (number : Int) : Bytes :=
  if number < 0 then 45 :: decimal number.natAbs else decimal number.natAbs

/-- The number that a run of digits denotes. -/
def digitsValue (digits : Bytes) : Nat :=
  digits.foldl (fun value digit => 10 * value + (digit.toNat - 48)) 0

/-- The number at the front of a text, if a digit stands there. -/
def scanNat (text : Bytes) : Option Nat :=
  match text.takeWhile isDigit with
  | [] => none
  | digit :: digits => some (digitsValue (digit :: digits))

/-- The number after an optional sign. -/
def scanSigned : Bytes → Option Int
  | [] => none
  | byte :: rest =>
      if byte = 45 then (scanNat rest).map fun number : Nat => -(number : Int)
      else if byte = 43 then (scanNat rest).map fun number : Nat => (number : Int)
      else (scanNat (byte :: rest)).map fun number : Nat => (number : Int)

/-- The exact number that `sscanf("%d")` reads, if it reads one. -/
def scanInt (text : Bytes) : Option Int := scanSigned (text.dropWhile isSpace)

/-! ## Text without NUL -/

theorem cString_eq {block : Bytes} (nulFree : Absent 0 block) :
    cString block = block := by
  rw [cString, List.takeWhile_eq_self_iff]
  intro byte member
  exact decide_eq_true (nulFree byte member)

theorem cString_nulFree (block : Bytes) : Absent 0 (cString block) := by
  intro byte member
  have kept := List.mem_takeWhile_imp member
  exact of_decide_eq_true kept

theorem length_cString_le (block : Bytes) : (cString block).length ≤ block.length :=
  (List.takeWhile_prefix _).length_le

/-- A property of texts without NUL is read correctly off a C string, unless the block has a
NUL and what stands before it has the property. -/
theorem cString_agrees_iff {property : Bytes → Prop}
    (nulFree : ∀ text, property text → Absent 0 text) (block : Bytes) :
    (property (cString block) ↔ property block) ↔ Absent 0 block ∨ ¬ property (cString block) := by
  constructor
  · intro agrees
    by_cases front : property (cString block)
    · exact .inl (nulFree block (agrees.mp front))
    · exact .inr front
  · rintro (whole | none)
    · rw [cString_eq whole]
    · refine ⟨fun front => absurd front none, fun all => ?_⟩
      rw [cString_eq (nulFree block all)]
      exact all

/-! ## Printing -/

theorem ascii_digitChar : ∀ digit < 10, ascii digit.digitChar = digitByte digit := by
  decide

theorem toNat_digitByte {digit : Nat} (single : digit < 10) :
    (digitByte digit).toNat = 48 + digit := by
  simp only [digitByte, UInt8.toNat_ofNat']
  omega

theorem isDigit_digitByte {digit : Nat} (single : digit < 10) :
    isDigit (digitByte digit) = true := by
  have value := toNat_digitByte single
  simp only [isDigit, Bool.and_eq_true, decide_eq_true_eq, UInt8.le_iff_toNat_le, value]
  change 48 ≤ 48 + digit ∧ 48 + digit ≤ 57
  omega

/-- The last digit of a decimal text, after the text of the number without it. -/
theorem decimal_eq (number : Nat) :
    decimal number =
      (if number < 10 then [] else decimal (number / 10)) ++ [digitByte (number % 10)] := by
  have last := ascii_digitChar (number % 10) (Nat.mod_lt _ (by omega))
  unfold decimal
  rw [Nat.toDigits_eq_if (by omega)]
  split
  · rename_i single
    rw [Nat.mod_eq_of_lt single] at last ⊢
    rw [List.map_singleton, last]
    rfl
  · rw [List.map_append, List.map_singleton, last]

theorem decimal_ne_nil (number : Nat) : decimal number ≠ [] := by
  rw [decimal_eq]
  simp

/-- A number below a power of ten has no more digits than it. -/
theorem length_decimal_le {digits number : Nat} (small : number < 10 ^ (digits + 1)) :
    (decimal number).length ≤ digits + 1 := by
  induction digits generalizing number with
  | zero =>
      have single : number < 10 := small
      rw [decimal_eq, if_pos single]
      exact le_rfl
  | succ digits ih =>
      rw [decimal_eq, List.length_append, List.length_singleton]
      split
      · simp
      · have rest : number / 10 < 10 ^ (digits + 1) := by
          rw [pow_succ] at small
          omega
        have fewer := ih rest
        omega

theorem isDigit_of_mem_decimal (number : Nat) : ∀ byte ∈ decimal number, isDigit byte = true := by
  induction number using Nat.strong_induction_on with
  | _ number ih =>
      intro byte member
      rw [decimal_eq, List.mem_append, List.mem_singleton] at member
      obtain early | last := member
      · split at early
        · cases early
        · exact ih (number / 10) (by omega) byte early
      · rw [last]
        exact isDigit_digitByte (Nat.mod_lt _ (by omega))

theorem digitsValue_append (digits : Bytes) (last : UInt8) :
    digitsValue (digits ++ [last]) = 10 * digitsValue digits + (last.toNat - 48) := by
  simp [digitsValue]

theorem digitsValue_decimal (number : Nat) : digitsValue (decimal number) = number := by
  induction number using Nat.strong_induction_on with
  | _ number ih =>
      rw [decimal_eq, digitsValue_append, toNat_digitByte (Nat.mod_lt _ (by omega))]
      split
      · simp only [digitsValue, List.foldl_nil]
        omega
      · rw [ih (number / 10) (by omega)]
        omega

/-! ## Scanning what was printed -/

/-- A digit is neither a blank, a sign, a delimiter nor NUL. -/
theorem digit_ne {byte : UInt8} (digit : isDigit byte = true) :
    isSpace byte = false ∧ byte ≠ 45 ∧ byte ≠ 43 ∧ byte ≠ 58 ∧ byte ≠ 44 ∧ byte ≠ 0 := by
  revert byte
  apply forall_byte
  decide +kernel

theorem decimal_nulFree (number : Nat) : Absent 0 (decimal number) :=
  fun byte member => (digit_ne (isDigit_of_mem_decimal number byte member)).2.2.2.2.2

theorem decimal_no_colon (number : Nat) : Absent 58 (decimal number) :=
  fun byte member => (digit_ne (isDigit_of_mem_decimal number byte member)).2.2.2.1

theorem decimal_no_space (number : Nat) : Absent 32 (decimal number) := by
  intro byte member isBlank
  have notSpace := (digit_ne (isDigit_of_mem_decimal number byte member)).1
  rw [isBlank] at notSpace
  cases notSpace

theorem scanNat_decimal (number : Nat) : scanNat (decimal number) = some number := by
  have all : (decimal number).takeWhile isDigit = decimal number :=
    List.takeWhile_eq_self_iff.mpr (isDigit_of_mem_decimal number)
  have value := digitsValue_decimal number
  rw [scanNat, all]
  cases text : decimal number with
  | nil => exact absurd text (decimal_ne_nil number)
  | cons digit digits =>
      rw [text] at value
      rw [← value]

theorem scanInt_decimal (number : Nat) : scanInt (decimal number) = some (number : Int) := by
  have scanned := scanNat_decimal number
  have digits := isDigit_of_mem_decimal number
  cases text : decimal number with
  | nil => exact absurd text (decimal_ne_nil number)
  | cons first rest =>
      rw [text] at scanned digits
      obtain ⟨notSpace, notMinus, notPlus, _⟩ := digit_ne (digits first List.mem_cons_self)
      rw [scanInt, List.dropWhile_cons_of_neg (by simp [notSpace]), scanSigned, if_neg notMinus,
        if_neg notPlus, scanned]
      rfl

theorem scanInt_printInt (number : Int) : scanInt (printInt number) = some number := by
  unfold printInt
  split
  · rename_i negative
    have notSpace : ¬ isSpace 45 = true := by decide
    rw [scanInt, List.dropWhile_cons_of_neg notSpace, scanSigned, if_pos rfl, scanNat_decimal,
      Option.map_some]
    congr 1
    omega
  · rw [scanInt_decimal]
    congr 1
    omega

theorem printInt_nulFree (number : Int) : Absent 0 (printInt number) := by
  intro byte member
  unfold printInt at member
  split at member
  · obtain rfl | later := List.mem_cons.mp member
    · decide
    · exact decimal_nulFree _ byte later
  · exact decimal_nulFree _ byte member

theorem printInt_of_nat (number : Nat) : printInt (number : Int) = decimal number := by
  rw [printInt, if_neg (by omega), Int.natAbs_natCast]

end M2Handler.Text

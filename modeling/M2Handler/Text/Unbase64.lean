import M2Handler.Text.Base64
import Mathlib.Data.List.DropRight

/-!
# Reading Base64

A text is read up to its first pad, and what is not in the alphabet is passed over.
The characters in front of the pads spell the bytes; their number decides which pads
have to follow.
-/

namespace M2Handler.Text

open Machine

def base64Value (char : UInt8) : Option Nat :=
  (List.range 64).find? fun value => base64Char value = char

def symbols (text : Bytes) : List Nat := text.filterMap base64Value

/-- The bytes that some values spell; bits that do not fill a byte are dropped. -/
def unbase64 : List Nat → Bytes
  | v0 :: v1 :: v2 :: v3 :: rest =>
      UInt8.ofNat (v0 * 4 + v1 / 16) :: UInt8.ofNat (v1 * 16 + v2 / 4) ::
        UInt8.ofNat (v2 * 64 + v3) :: unbase64 rest
  | [v0, v1, v2] => [UInt8.ofNat (v0 * 4 + v1 / 16), UInt8.ofNat (v1 * 16 + v2 / 4)]
  | [v0, v1] => [UInt8.ofNat (v0 * 4 + v1 / 16)]
  | _ => []

def base64Body (text : Bytes) : Bytes := text.takeWhile (· != 61)

def base64Tail (text : Bytes) : Bytes := text.dropWhile (· != 61)

/-- The pads that a number of characters needs are there. -/
def Padded (count : Nat) (tail : Bytes) : Prop :=
  match count % 4 with
  | 0 => tail = []
  | 2 => [61, 61] <+: tail
  | 3 => tail ≠ []
  | _ => False

instance (count : Nat) (tail : Bytes) : Decidable (Padded count tail) := by
  unfold Padded
  split <;> infer_instance

/-- A text that is read to its end. -/
def IsBase64 (text : Bytes) : Prop := Padded (symbols (base64Body text)).length (base64Tail text)

instance (text : Bytes) : Decidable (IsBase64 text) := inferInstanceAs (Decidable (Padded _ _))

/-- A text that is read to its end, as these bytes. -/
def Spells (data text : Bytes) : Prop :=
  IsBase64 text ∧ unbase64 (symbols (base64Body text)) = data

/-! ## Characters -/

theorem base64Value_base64Char : ∀ value < 64, base64Value (base64Char value) = some value := by
  decide

theorem symbols_append (first second : Bytes) :
    symbols (first ++ second) = symbols first ++ symbols second :=
  List.filterMap_append

theorem symbols_base64Text {values : List Nat} (small : ∀ value ∈ values, value < 64) :
    symbols (base64Text values) = values := by
  rw [symbols, base64Text, List.filterMap_map]
  have same : ∀ value ∈ values, (base64Value ∘ base64Char) value = some value :=
    fun value member => base64Value_base64Char value (small value member)
  rw [List.filterMap_congr same, List.filterMap_some]

theorem base64Char_ne_pad (value : Nat) : base64Char value ≠ 61 := by
  have small : ∀ value < 63, base64Char value ≠ 61 := by decide
  by_cases below : value < 63
  · exact small value below
  · unfold base64Char
    rw [if_neg (by omega), if_neg (by omega), if_neg (by omega), if_neg (by omega)]
    decide

theorem pad_notMem_base64Text (values : List Nat) : 61 ∉ base64Text values := by
  intro member
  obtain ⟨value, -, same⟩ := List.mem_map.mp member
  exact base64Char_ne_pad value same

/-! ## Groups -/

theorem ofNat_eq {value : Nat} {b : UInt8} (same : value % 2 ^ 8 = b.toNat) :
    UInt8.ofNat value = b := by
  rw [← UInt8.toNat_inj, UInt8.toNat_ofNat']
  exact same

/-- A group spells its three bytes. -/
theorem unbase64_sextets (b0 b1 b2 : UInt8) (values : List Nat) :
    unbase64 (sextets (groupOf b0 b1 b2) ++ values) = b0 :: b1 :: b2 :: unbase64 values := by
  have first := b0.toNat_lt
  have second := b1.toNat_lt
  have third := b2.toNat_lt
  simp only [sextets, groupOf, List.cons_append, List.nil_append, unbase64]
  rw [ofNat_eq, ofNat_eq, ofNat_eq]
  all_goals omega

theorem unbase64_two (b0 b1 : UInt8) :
    unbase64 ((sextets (groupOf b0 b1 0)).take 3) = [b0, b1] := by
  have first := b0.toNat_lt
  have second := b1.toNat_lt
  have zero : (0 : UInt8).toNat = 0 := rfl
  simp only [sextets, groupOf, List.take, unbase64, zero]
  rw [ofNat_eq, ofNat_eq]
  all_goals omega

theorem unbase64_one (b0 : UInt8) : unbase64 ((sextets (groupOf b0 0 0)).take 2) = [b0] := by
  have first := b0.toNat_lt
  have zero : (0 : UInt8).toNat = 0 := rfl
  simp only [sextets, groupOf, List.take, unbase64, zero]
  rw [ofNat_eq]
  omega

section Reading

variable {text front : Bytes} (unpadded : 61 ∉ front)
include unpadded

theorem base64Body_append : base64Body (front ++ text) = front ++ base64Body text := by
  refine List.takeWhile_append_of_pos fun char member => bne_iff_ne.mpr ?_
  rintro rfl
  exact unpadded member

theorem base64Tail_append : base64Tail (front ++ text) = base64Tail text := by
  refine List.dropWhile_append_of_pos fun char member => bne_iff_ne.mpr ?_
  rintro rfl
  exact unpadded member

/-- What is not in the alphabet is passed over. -/
theorem Spells.skip {data : Bytes} (spells : Spells data text) (noise : symbols front = []) :
    Spells data (front ++ text) := by
  rw [Spells, IsBase64, base64Body_append unpadded, base64Tail_append unpadded, symbols_append,
    noise, List.nil_append]
  exact spells

/-- A group in front of a text. -/
theorem Spells.group {data : Bytes} (spells : Spells data text) {b0 b1 b2 : UInt8}
    (chars : symbols front = sextets (groupOf b0 b1 b2)) :
    Spells (b0 :: b1 :: b2 :: data) (front ++ text) := by
  rw [Spells, IsBase64, base64Body_append unpadded, base64Tail_append unpadded, symbols_append,
    chars, unbase64_sextets, spells.2]
  refine ⟨?_, rfl⟩
  have whole := spells.1
  rw [IsBase64, Padded] at whole
  rw [Padded, List.length_append, sextets, List.length_cons, List.length_cons, List.length_cons,
    List.length_cons, List.length_nil, Nat.add_comm, Nat.add_mod_right]
  exact whole

end Reading

theorem spells_nil : Spells [] [] := ⟨rfl, rfl⟩

/-- Some characters and the pads behind them. -/
theorem spells_padded {values : List Nat} {pads data : Bytes}
    (small : ∀ value ∈ values, value < 64) (begins : base64Body pads = [])
    (padded : Padded values.length (base64Tail pads)) (bytes : unbase64 values = data) :
    Spells data (base64Text values ++ pads) := by
  rw [Spells, IsBase64, base64Body_append (pad_notMem_base64Text values),
    base64Tail_append (pad_notMem_base64Text values), begins, List.append_nil,
    symbols_base64Text small]
  exact ⟨padded, bytes⟩

/-- The text of some bytes spells them. -/
theorem spells_base64 (data : Bytes) : Spells data (base64 data) := by
  induction data using base64.induct with
  | case1 b0 b1 b2 rest ih =>
      exact ih.group (pad_notMem_base64Text _) (symbols_base64Text fun _ => lt_of_mem_sextets)
  | case2 b0 b1 =>
      refine spells_padded (fun value member => lt_of_mem_sextets (List.mem_of_mem_take member))
        rfl ?_ (unbase64_two b0 b1)
      exact (by decide : Padded 3 [61])
  | case3 b0 =>
      refine spells_padded (fun value member => lt_of_mem_sextets (List.mem_of_mem_take member))
        rfl ?_ (unbase64_one b0)
      exact (by decide : Padded 2 [61, 61])
  | case4 => exact spells_nil

end M2Handler.Text

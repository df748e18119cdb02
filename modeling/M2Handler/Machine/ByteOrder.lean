import Mathlib.Data.List.Basic
import Mathlib.Tactic.Common
import Mathlib.Tactic.Ring

/-!
# Byte order

An unsigned integer of `width` bytes is laid out in memory low byte first or
high byte first.  Both layouts are inverse to reading the bytes back, and a
little-endian layout is the reverse of the network one.
-/

namespace M2Handler.Machine

abbrev Bytes := List UInt8

/-- A property of all bytes is checked on the 256 of them. -/
theorem forall_byte {property : UInt8 → Prop}
    (each : ∀ index : Fin 256, property (UInt8.ofFin index)) (byte : UInt8) : property byte :=
  each byte.toFin

def Absent (byte : UInt8) (text : Bytes) : Prop := ∀ other ∈ text, other ≠ byte

instance (byte : UInt8) (text : Bytes) : Decidable (Absent byte text) :=
  decidable_of_iff ((text.all fun other => other ≠ byte) = true) (by simp [Absent])

def littleBytes : Nat → Nat → Bytes
  | 0, _ => []
  | width + 1, value => UInt8.ofNat value :: littleBytes width (value / 256)

def littleValue : Bytes → Nat
  | [] => 0
  | byte :: rest => byte.toNat + 256 * littleValue rest

def networkBytes (width value : Nat) : Bytes := (littleBytes width value).reverse

def networkValue (bytes : Bytes) : Nat := littleValue bytes.reverse

@[simp] theorem length_littleBytes (width value : Nat) :
    (littleBytes width value).length = width := by
  induction width generalizing value with
  | zero => rfl
  | succ width ih => simp [littleBytes, ih]

@[simp] theorem length_networkBytes (width value : Nat) :
    (networkBytes width value).length = width := by
  simp [networkBytes]

theorem littleValue_lt (bytes : Bytes) : littleValue bytes < 256 ^ bytes.length := by
  induction bytes with
  | nil => simp [littleValue]
  | cons byte rest ih =>
      have small : byte.toNat < 256 := byte.toNat_lt
      simp only [littleValue, List.length_cons, Nat.pow_succ]
      omega

theorem littleValue_littleBytes (width value : Nat) :
    littleValue (littleBytes width value) = value % 256 ^ width := by
  induction width generalizing value with
  | zero => simp [littleBytes, littleValue, Nat.mod_one]
  | succ width ih =>
      have low : (UInt8.ofNat value).toNat = value % 256 := by
        simp
      rw [littleBytes, littleValue, ih, low, Nat.pow_succ, Nat.mul_comm (256 ^ width) 256,
        Nat.mod_mul]

theorem littleBytes_littleValue (bytes : Bytes) :
    littleBytes bytes.length (littleValue bytes) = bytes := by
  induction bytes with
  | nil => rfl
  | cons byte rest ih =>
      have small : byte.toNat < 256 := byte.toNat_lt
      have low : UInt8.ofNat (byte.toNat + 256 * littleValue rest) = byte := by
        apply UInt8.toNat_inj.mp
        simp only [UInt8.toNat_ofNat']
        omega
      have high : (byte.toNat + 256 * littleValue rest) / 256 = littleValue rest := by
        omega
      rw [List.length_cons, littleValue, littleBytes, low, high, ih]

/-- Only the value modulo the width is laid out. -/
theorem littleBytes_mod (width value : Nat) :
    littleBytes width (value % 256 ^ width) = littleBytes width value := by
  have laidOut := littleBytes_littleValue (littleBytes width value)
  rwa [length_littleBytes, littleValue_littleBytes] at laidOut

theorem littleBytes_add (low high value : Nat) :
    littleBytes (low + high) value =
      littleBytes low value ++ littleBytes high (value / 256 ^ low) := by
  induction low generalizing value with
  | zero => simp [littleBytes]
  | succ low ih =>
      rw [Nat.succ_add, littleBytes, littleBytes, ih, List.cons_append, Nat.pow_succ',
        Nat.div_div_eq_div_mul]

/-- The high part comes first in network order. -/
theorem networkBytes_add (high low value : Nat) :
    networkBytes (high + low) value =
      networkBytes high (value / 256 ^ low % 256 ^ high) ++
        networkBytes low (value % 256 ^ low) := by
  rw [networkBytes, networkBytes, networkBytes, littleBytes_mod, littleBytes_mod,
    Nat.add_comm high low, littleBytes_add, List.reverse_append]

/-- The order in which the host lays out an integer. -/
inductive Endian where
  | little
  | big
  deriving DecidableEq, Repr

namespace Endian

def bytes : Endian → Nat → Nat → Bytes
  | .little => littleBytes
  | .big => networkBytes

def value : Endian → Bytes → Nat
  | .little => littleValue
  | .big => networkValue

@[simp] theorem length_bytes (endian : Endian) (width number : Nat) :
    (endian.bytes width number).length = width := by
  cases endian <;> simp [bytes]

theorem value_lt (endian : Endian) (memory : Bytes) :
    endian.value memory < 256 ^ memory.length := by
  cases endian with
  | little => exact littleValue_lt memory
  | big => simpa [value, networkValue] using littleValue_lt memory.reverse

theorem value_bytes (endian : Endian) {width number : Nat} (fits : number < 256 ^ width) :
    endian.value (endian.bytes width number) = number := by
  cases endian with
  | little =>
      rw [value, bytes, littleValue_littleBytes, Nat.mod_eq_of_lt fits]
  | big =>
      rw [value, bytes, networkValue, networkBytes, List.reverse_reverse,
        littleValue_littleBytes, Nat.mod_eq_of_lt fits]

theorem bytes_value (endian : Endian) (memory : Bytes) :
    endian.bytes memory.length (endian.value memory) = memory := by
  cases endian with
  | little => exact littleBytes_littleValue memory
  | big =>
      have inner := littleBytes_littleValue memory.reverse
      rw [List.length_reverse] at inner
      rw [bytes, value, networkBytes, networkValue, inner, List.reverse_reverse]

end Endian

/-- `htons`: the `uint16_t` whose bytes in memory are the argument in network
order. -/
def htons : Endian → UInt16 → UInt16
  | .little, short => UInt16.ofNat (short.toNat % 256 * 256 + short.toNat / 256)
  | .big, short => short

theorem toNat_htons_big (short : UInt16) : (htons .big short).toNat = short.toNat :=
  rfl

theorem toNat_htons_little (short : UInt16) :
    (htons .little short).toNat = short.toNat % 256 * 256 + short.toNat / 256 := by
  have small : short.toNat < 65536 := short.toNat_lt
  simp only [htons, UInt16.toNat_ofNat']
  omega

/-- Swapping the two digits of a number in base 256. -/
private theorem swapped_digits (low : Nat) {high : Nat} (highSmall : high < 256) :
    (low * 256 + high) % 256 = high ∧ (low * 256 + high) / 256 = low := by
  omega

theorem bytes_htons (endian : Endian) (short : UInt16) :
    endian.bytes 2 (htons endian short).toNat = networkBytes 2 short.toNat := by
  have small : short.toNat < 65536 := short.toNat_lt
  cases endian with
  | big => rfl
  | little =>
      have highSmall : short.toNat / 256 < 256 := by omega
      obtain ⟨remainder, quotient⟩ := swapped_digits (short.toNat % 256) highSmall
      have first : UInt8.ofNat (short.toNat % 256 * 256 + short.toNat / 256) =
          UInt8.ofNat (short.toNat / 256) := by
        apply UInt8.toNat_inj.mp
        rw [UInt8.toNat_ofNat', UInt8.toNat_ofNat', remainder]
        omega
      have second : UInt8.ofNat ((short.toNat % 256 * 256 + short.toNat / 256) / 256) =
          UInt8.ofNat short.toNat := by
        apply UInt8.toNat_inj.mp
        rw [UInt8.toNat_ofNat', UInt8.toNat_ofNat', quotient]
        omega
      rw [toNat_htons_little]
      simp only [Endian.bytes, networkBytes, littleBytes, first, second, List.reverse_cons,
        List.reverse_nil, List.nil_append, List.cons_append]

/-- Loading two network-order bytes as a `uint16_t` and applying `htons` gives
their network value. -/
theorem htons_load (endian : Endian) (high low : UInt8) :
    (htons endian (UInt16.ofNat (endian.value [high, low]))).toNat =
      networkValue [high, low] := by
  have highSmall : high.toNat < 256 := high.toNat_lt
  have lowSmall : low.toNat < 256 := low.toNat_lt
  have network : networkValue [high, low] = high.toNat * 256 + low.toNat := by
    simp only [networkValue, littleValue, List.reverse_cons, List.reverse_nil,
      List.nil_append, List.cons_append]
    omega
  cases endian with
  | big =>
      rw [toNat_htons_big, UInt16.toNat_ofNat', Endian.value, network]
      omega
  | little =>
      obtain ⟨remainder, quotient⟩ := swapped_digits low.toNat highSmall
      have loaded : (UInt16.ofNat (Endian.little.value [high, low])).toNat =
          low.toNat * 256 + high.toNat := by
        simp only [Endian.value, littleValue, UInt16.toNat_ofNat']
        omega
      rw [toNat_htons_little, loaded, remainder, quotient, network]

/-- A positive number below `2 ^ 32` is not laid out the same way in both
orders when it is given eight bytes. -/
theorem littleBytes_ne_networkBytes {number : Nat} (positive : 0 < number)
    (small : number < 4294967296) :
    littleBytes 8 number ≠ networkBytes 8 number := by
  intro same
  have fifth : number / 256 / 256 / 256 / 256 = 0 := by omega
  simp only [networkBytes, littleBytes, List.reverse_cons, List.reverse_nil,
    List.nil_append, List.cons_append, List.cons.injEq, and_true, fifth,
    Nat.zero_div] at same
  obtain ⟨first, second, third, fourth, _⟩ := same
  have firstNat := congrArg UInt8.toNat first
  have secondNat := congrArg UInt8.toNat second
  have thirdNat := congrArg UInt8.toNat third
  have fourthNat := congrArg UInt8.toNat fourth
  simp only [UInt8.toNat_ofNat'] at firstNat secondNat thirdNat fourthNat
  omega

end M2Handler.Machine

import M2Handler.Machine.Exec

/-!
# Signed 32-bit arithmetic

Values of C type `int` are integers in `[intMin, intMax]`.  A conversion to
`int` keeps the low 32 bits.  Arithmetic on `int` either wraps the same way or
traps, as the compiler is told.
-/

namespace M2Handler.Machine

def intMax : Int := 2147483647

def intMin : Int := -2147483648

def IsInt (value : Int) : Prop := intMin ≤ value ∧ value ≤ intMax

instance (value : Int) : Decidable (IsInt value) :=
  inferInstanceAs (Decidable (_ ∧ _))

/-- Conversion to `int`: the low 32 bits, read as two's complement. -/
def toInt (value : Int) : Int := (value + 2147483648) % 4294967296 - 2147483648

theorem isInt_toInt (value : Int) : IsInt (toInt value) := by
  unfold IsInt intMin intMax toInt
  omega

theorem toInt_eq {value : Int} (fits : IsInt value) : toInt value = value := by
  unfold IsInt intMin intMax at fits
  unfold toInt
  omega

theorem toInt_of_nat {count : Nat} (fits : count ≤ 2147483647) :
    toInt (count : Int) = count :=
  toInt_eq ⟨by unfold intMin; omega, by unfold intMax; omega⟩

/-- An `int` result: the exact value when it is representable; otherwise a trap
or the wrapped value. -/
def arith (trapv : Bool) (exact : Int) : Exec Int :=
  if IsInt exact then .ok exact
  else if trapv then .error .signedOverflow
  else .ok (toInt exact)

theorem arith_eq (trapv : Bool) {exact : Int} (fits : IsInt exact) :
    arith trapv exact = .ok exact := by
  rw [arith, if_pos fits]

theorem arith_wraps (exact : Int) : arith false exact = .ok (toInt exact) := by
  unfold arith
  split
  · rename_i fits
    rw [toInt_eq fits]
  · rfl

/-- What is computed is an `int`. -/
theorem arith_isInt {trapv : Bool} {exact value : Int} (computed : arith trapv exact = .ok value) :
    IsInt value := by
  unfold arith at computed
  split at computed
  · rename_i fits
    cases computed
    exact fits
  · split at computed
    · cases computed
    · cases computed
      exact isInt_toInt exact

end M2Handler.Machine

import Mathlib.Data.Int.Basic
import Mathlib.Tactic.Common

/-!
# Executions of C functions

A C function either returns or stops in a fault.  The faults are the ways in
which a run leaves the defined part of the language: an access outside a
block, a null pointer, a failed assertion, a signed overflow that traps, a
second lock of a held mutex, and a loop that does not end.
-/

namespace M2Handler.Machine

/-- Why a run stops without returning to its caller. -/
inductive Fault where
  | outOfBounds
  | nullPointer
  | assertion
  | signedOverflow
  | deadlock
  | divergence
  deriving DecidableEq, Repr

/-- The fault stops the run, which neither goes on nor waits for ever. -/
def Fault.Halts : Fault → Prop
  | .deadlock => False
  | .divergence => False
  | _ => True

/-- A run that returns a value or stops in a fault. -/
abbrev Exec (α : Type) := Except Fault α

namespace Exec

variable {α β : Type}

@[simp] theorem ok_bind (value : α) (next : α → Exec β) :
    ((Except.ok value : Exec α) >>= next) = next value :=
  (rfl)

@[simp] theorem pure_bind (value : α) (next : α → Exec β) :
    ((pure value : Exec α) >>= next) = next value :=
  (rfl)

@[simp] theorem error_bind (fault : Fault) (next : α → Exec β) :
    ((Except.error fault : Exec α) >>= next) = .error fault :=
  (rfl)

@[simp] theorem pure_eq_ok (value : α) : (pure value : Exec α) = .ok value :=
  (rfl)

@[simp] theorem throw_eq_error (fault : Fault) :
    (throw fault : Exec α) = .error fault :=
  (rfl)

/-- A sequence returns exactly when its first part returns a value from which
the second part returns. -/
theorem bind_eq_ok {first : Exec α} {next : α → Exec β} {result : β} :
    (first >>= next) = .ok result ↔
      ∃ value, first = .ok value ∧ next value = .ok result := by
  cases first with
  | error fault =>
      constructor
      · intro impossible; cases impossible
      · rintro ⟨value, impossible, _⟩; cases impossible
  | ok value =>
      constructor
      · intro returned; exact ⟨value, rfl, returned⟩
      · rintro ⟨other, same, returned⟩; cases same; exact returned

end Exec

/-- `assert`: compiled out when `NDEBUG` is defined. -/
def cassert (ndebug : Bool) (condition : Bool) : Exec Unit :=
  if ndebug || condition then .ok () else .error .assertion

@[simp] theorem cassert_ndebug (condition : Bool) : cassert true condition = .ok () :=
  rfl

@[simp] theorem cassert_true (ndebug : Bool) : cassert ndebug true = .ok () := by
  cases ndebug <;> rfl

/-- `#ifndef NDEBUG`: a step that only a build without `NDEBUG` takes. -/
def ifDebug (ndebug : Bool) (step : Exec Unit) : Exec Unit := if ndebug then .ok () else step

/-- Reading through a pointer: the null pointer faults. -/
def deref {α : Type} : Option α → Exec α
  | some value => .ok value
  | none => .error .nullPointer

@[simp] theorem deref_some {α : Type} (value : α) : deref (some value) = .ok value :=
  (rfl)

@[simp] theorem deref_none {α : Type} : deref (none : Option α) = .error .nullPointer :=
  rfl

end M2Handler.Machine

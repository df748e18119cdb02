import M2Handler.Machine.Exec

/-!
# Objects that refine a specification

A specification says which calls an object allows, what they answer and how they
change its abstract state.  An implementation simulates it when every allowed
call returns as specified, and refines it when every other call faults as well;
then the same holds of runs.
-/

namespace M2Handler.Machine

variable {ι α : Type*} {ο σ : Type}

/-- An object seen from its callers. -/
structure Specification (ι α : Type*) (ο : Type) where
  allowed : α → ι → Prop
  next : α → ι → α
  answer : α → ι → ο

namespace Specification

variable (spec : Specification ι α ο)

def AllowedFrom : α → List ι → Prop
  | _, [] => True
  | abstract, call :: calls =>
      spec.allowed abstract call ∧ AllowedFrom (spec.next abstract call) calls

def after : α → List ι → α
  | abstract, [] => abstract
  | abstract, call :: calls => after (spec.next abstract call) calls

def answers : α → List ι → List ο
  | _, [] => []
  | abstract, call :: calls =>
      spec.answer abstract call :: answers (spec.next abstract call) calls

theorem after_append (abstract : α) (earlier later : List ι) :
    spec.after abstract (earlier ++ later) = spec.after (spec.after abstract earlier) later := by
  induction earlier generalizing abstract with
  | nil => rfl
  | cons call earlier ih => exact ih (spec.next abstract call)

/-- The answer to a call depends on the calls before it only. -/
theorem getElem?_answers (abstract : α) (earlier : List ι) (call : ι) (later : List ι) :
    (spec.answers abstract (earlier ++ call :: later))[earlier.length]? =
      some (spec.answer (spec.after abstract earlier) call) := by
  induction earlier generalizing abstract with
  | nil => rfl
  | cons first earlier ih => exact ih (spec.next abstract first)

theorem allowedFrom_append {abstract : α} {earlier later : List ι} :
    spec.AllowedFrom abstract (earlier ++ later) ↔
      spec.AllowedFrom abstract earlier ∧ spec.AllowedFrom (spec.after abstract earlier) later := by
  induction earlier generalizing abstract with
  | nil => simp [AllowedFrom, after]
  | cons call earlier ih => simp only [List.cons_append, AllowedFrom, after, ih, and_assoc]

/-- What every allowed call keeps is kept by all of them. -/
theorem after_keeps {kept : α → Prop}
    (step : ∀ {abstract} (call : ι), kept abstract → spec.allowed abstract call →
      kept (spec.next abstract call)) {abstract : α} {calls : List ι} (start : kept abstract)
    (allowed : spec.AllowedFrom abstract calls) : kept (spec.after abstract calls) := by
  induction calls generalizing abstract with
  | nil => exact start
  | cons call calls ih => exact ih (step call start allowed.1) allowed.2

end Specification

def runCalls (call : ι → σ → Exec (ο × σ)) : List ι → σ → Exec (List ο × σ)
  | [], state => .ok ([], state)
  | first :: calls, state => do
      let (answer, state) ← call first state
      let (answers, state) ← runCalls call calls state
      return (answer :: answers, state)

/-- An implementation does what is specified on the calls that are allowed. -/
structure Simulates (call : ι → σ → Exec (ο × σ)) (spec : Specification ι α ο)
    (represents : σ → α → Prop) : Prop where
  returns : ∀ {state abstract} (made : ι), represents state abstract →
    spec.allowed abstract made →
      ∃ state', call made state = .ok (spec.answer abstract made, state') ∧
        represents state' (spec.next abstract made)

/-- An implementation also faults on the calls that are not allowed. -/
structure Refines (call : ι → σ → Exec (ο × σ)) (spec : Specification ι α ο)
    (represents : σ → α → Prop) : Prop extends Simulates call spec represents where
  faults : ∀ {state abstract} (made : ι), represents state abstract →
    ¬ spec.allowed abstract made → ∃ fault, call made state = .error fault

variable {call : ι → σ → Exec (ο × σ)} {spec : Specification ι α ο} {represents : σ → α → Prop}

/-- A run of allowed calls returns the specified answers. -/
theorem Simulates.run_returns (simulates : Simulates call spec represents) {state : σ}
    {abstract : α} {calls : List ι} (represented : represents state abstract)
    (allowed : spec.AllowedFrom abstract calls) :
    ∃ state', runCalls call calls state = .ok (spec.answers abstract calls, state') ∧
      represents state' (spec.after abstract calls) := by
  induction calls generalizing state abstract with
  | nil => exact ⟨state, rfl, represented⟩
  | cons first calls ih =>
      obtain ⟨allowedFirst, allowedRest⟩ := allowed
      obtain ⟨between, returned, representedBetween⟩ :=
        simulates.returns first represented allowedFirst
      obtain ⟨state', rest, representedAfter⟩ := ih representedBetween allowedRest
      refine ⟨state', ?_, representedAfter⟩
      rw [runCalls, returned, Exec.ok_bind]
      dsimp only
      rw [rest, Exec.ok_bind]
      rfl

/-- A run that returns made allowed calls only. -/
theorem Refines.run_inv (refines : Refines call spec represents) {state state' : σ} {abstract : α}
    {calls : List ι} {answers : List ο} (represented : represents state abstract)
    (returned : runCalls call calls state = .ok (answers, state')) :
    spec.AllowedFrom abstract calls ∧ answers = spec.answers abstract calls ∧
      represents state' (spec.after abstract calls) := by
  induction calls generalizing state abstract answers with
  | nil =>
      cases returned
      exact ⟨trivial, rfl, represented⟩
  | cons first calls ih =>
      obtain ⟨⟨answer, between⟩, called, rest⟩ := Exec.bind_eq_ok.mp returned
      obtain ⟨⟨others, last⟩, ran, finished⟩ := Exec.bind_eq_ok.mp rest
      cases finished
      by_cases allowedFirst : spec.allowed abstract first
      · obtain ⟨expected, specified, representedBetween⟩ :=
          refines.returns first represented allowedFirst
        rw [called] at specified
        cases specified
        obtain ⟨allowedRest, rfl, representedAfter⟩ := ih representedBetween ran
        exact ⟨⟨allowedFirst, allowedRest⟩, rfl, representedAfter⟩
      · obtain ⟨fault, faulted⟩ := refines.faults first represented allowedFirst
        rw [called] at faulted
        cases faulted

end M2Handler.Machine

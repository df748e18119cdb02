import M2Handler.Machine.Exec

/-!
# Executions in lockstep

Two executions agree when they stop in the same fault, or both return and their
results are related.  Agreement is kept by sequences and by loops.
-/

namespace M2Handler.Machine

variable {α β γ δ ι : Type}

/-- The same fault, or related results. -/
def Agree (related : α → β → Prop) (run : Exec α) (model : Exec β) : Prop :=
  (∃ fault, run = .error fault ∧ model = .error fault) ∨
    ∃ result expected, run = .ok result ∧ model = .ok expected ∧ related result expected

namespace Agree

variable {related : α → β → Prop} {run : Exec α} {model : Exec β}

theorem ok {result : α} {expected : β} (holds : related result expected) :
    Agree related (.ok result) (.ok expected) :=
  .inr ⟨result, expected, rfl, rfl, holds⟩

theorem error (fault : Fault) : Agree related (.error fault) (.error fault) :=
  .inl ⟨fault, rfl, rfl⟩

/-- Sequences of executions that agree. -/
theorem bind {related' : γ → δ → Prop} {next : α → Exec γ} {next' : β → Exec δ}
    (agree : Agree related run model)
    (rest : ∀ result expected, related result expected →
      Agree related' (next result) (next' expected)) :
    Agree related' (run >>= next) (model >>= next') := by
  rcases agree with ⟨fault, rfl, rfl⟩ | ⟨result, expected, rfl, rfl, holds⟩
  · exact error fault
  · exact rest result expected holds

/-- A part that both have in common. -/
theorem bind_same {related' : γ → δ → Prop} {common : Exec α} {next : α → Exec γ}
    {next' : α → Exec δ}
    (rest : ∀ result, common = .ok result → Agree related' (next result) (next' result)) :
    Agree related' (common >>= next) (common >>= next') := by
  cases common with
  | error fault => exact error fault
  | ok result => exact rest result rfl

/-- Loops whose steps agree. -/
theorem foldlM {step : α → ι → Exec α} {step' : β → ι → Exec β}
    (steps : ∀ state expected input, related state expected →
      Agree related (step state input) (step' expected input))
    (inputs : List ι) {state : α} {expected : β} (holds : related state expected) :
    Agree related (inputs.foldlM step state) (inputs.foldlM step' expected) := by
  induction inputs generalizing state expected with
  | nil => exact ok holds
  | cons input inputs ih =>
      rw [List.foldlM_cons, List.foldlM_cons]
      exact (steps state expected input holds).bind fun _ _ next => ih next

theorem returns (agree : Agree related run model) {expected : β} (modelled : model = .ok expected) :
    ∃ result, run = .ok result ∧ related result expected := by
  rcases agree with ⟨fault, -, stopped⟩ | ⟨result, other, ran, same, holds⟩
  · rw [modelled] at stopped
    cases stopped
  · rw [modelled] at same
    cases same
    exact ⟨result, ran, holds⟩

theorem returned (agree : Agree related run model) {result : α} (ran : run = .ok result) :
    ∃ expected, model = .ok expected ∧ related result expected := by
  rcases agree with ⟨fault, stopped, -⟩ | ⟨other, expected, same, modelled, holds⟩
  · rw [ran] at stopped
    cases stopped
  · rw [ran] at same
    cases same
    exact ⟨expected, modelled, holds⟩

theorem stops (agree : Agree related run model) {fault : Fault} (stopped : model = .error fault) :
    run = .error fault := by
  rcases agree with ⟨other, ran, same⟩ | ⟨result, expected, -, modelled, -⟩
  · rw [stopped] at same
    cases same
    exact ran
  · rw [stopped] at modelled
    cases modelled

theorem returns_iff (agree : Agree related run model) :
    (∃ result, run = .ok result) ↔ ∃ expected, model = .ok expected := by
  constructor
  · rintro ⟨result, ran⟩
    obtain ⟨expected, modelled, -⟩ := agree.returned ran
    exact ⟨expected, modelled⟩
  · rintro ⟨expected, modelled⟩
    obtain ⟨result, ran, -⟩ := agree.returns modelled
    exact ⟨result, ran⟩

end Agree

/-! ## Loops -/

/-- A loop whose steps return where they are made returns. -/
theorem foldlM_returns {kept : α → Prop} {step : α → ι → Exec α} {inputs : List ι} {state : α}
    (returns : ∀ state, ∀ input ∈ inputs, kept state →
      ∃ next, step state input = .ok next ∧ kept next)
    (start : kept state) : ∃ last, inputs.foldlM step state = .ok last ∧ kept last := by
  induction inputs generalizing state with
  | nil => exact ⟨state, rfl, start⟩
  | cons input inputs ih =>
      obtain ⟨next, stepped, between⟩ := returns state input List.mem_cons_self start
      obtain ⟨last, ran, final⟩ :=
        ih (fun state input member => returns state input (List.mem_cons_of_mem _ member)) between
      refine ⟨last, ?_, final⟩
      rw [List.foldlM_cons, stepped]
      exact ran

/-- A loop each of whose steps emits what its input means. -/
theorem foldlM_emits {σ κ ο : Type} {means : ι → κ → Prop} {state : σ → α} {emit : σ → ο → σ}
    {emitted : κ → List ο} {step : α → ι → Exec α}
    (steps : ∀ (start : σ) input meaning, means input meaning →
      step (state start) input = .ok (state ((emitted meaning).foldl emit start)))
    {inputs : List ι} {meanings : List κ} (related : List.Forall₂ means inputs meanings)
    (start : σ) :
    inputs.foldlM step (state start) =
      .ok (state ((meanings.flatMap emitted).foldl emit start)) := by
  induction related generalizing start with
  | nil => rfl
  | cons meaning _ ih =>
      rw [List.foldlM_cons, steps start _ _ meaning, Exec.ok_bind, ih, List.flatMap_cons,
        List.foldl_append]

/-- A loop that returns ran its first part and then the rest. -/
theorem foldlM_append_ok {step : α → ι → Exec α} {earlier later : List ι} {state last : α} :
    (earlier ++ later).foldlM step state = .ok last ↔
      ∃ between, earlier.foldlM step state = .ok between ∧ later.foldlM step between = .ok last := by
  rw [List.foldlM_append]
  exact Exec.bind_eq_ok

theorem foldlM_singleton (step : α → ι → Exec α) (state : α) (input : ι) :
    [input].foldlM step state = step state input := by
  rw [List.foldlM_cons]
  cases step state input <;> rfl

/-- A loop that returns made its last step at last. -/
theorem foldlM_concat_ok {step : α → ι → Exec α} {inputs : List ι} {input : ι} {state last : α} :
    (inputs ++ [input]).foldlM step state = .ok last ↔
      ∃ between, inputs.foldlM step state = .ok between ∧ step between input = .ok last := by
  rw [foldlM_append_ok]
  simp only [foldlM_singleton]

end M2Handler.Machine

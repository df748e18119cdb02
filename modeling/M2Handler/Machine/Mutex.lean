import M2Handler.Machine.Refinement
import Mathlib.Logic.Function.Basic
import Mathlib.Logic.Relation

/-!
# Threads and a mutex

Some threads share a state and make their calls action by action, interleaved in any
order.  The steps of the threads know no mutex: taking it and giving it back are
actions like the others.  Calls that take it first and give it back last exclude each
other, and a run does what its calls do one after the other, in the order in which
they give the mutex back.
-/

namespace M2Handler.Machine

variable {θ ι ℓ ο σ : Type}

/-! ## Calls and their actions -/

/-- An action on the local variables of a call and the shared state.  One that must
wait is a deadlock in the state that it must wait in. -/
abbrev Action (ℓ σ : Type) := ℓ → σ → Exec (ℓ × σ)

structure Procedures (ι ℓ ο σ : Type) where
  entry : ι → ℓ
  body : ι → List (Action ℓ σ)
  /-- The result, which depends on the local variables only. -/
  answer : ι → ℓ → ο

def runActions : List (Action ℓ σ) → ℓ → σ → Exec (ℓ × σ)
  | [], locals, shared => .ok (locals, shared)
  | action :: rest, locals, shared => do
      let (locals, shared) ← action locals shared
      runActions rest locals shared

/-- The call of a thread that is alone. -/
def Procedures.alone (procedures : Procedures ι ℓ ο σ) (call : ι) (shared : σ) :
    Exec (ο × σ) := do
  let (locals, shared) ← runActions (procedures.body call) (procedures.entry call) shared
  return (procedures.answer call locals, shared)

theorem runActions_cons {action : Action ℓ σ} {rest : List (Action ℓ σ)} {locals locals' : ℓ}
    {shared shared' : σ} (made : action locals shared = .ok (locals', shared')) :
    runActions (action :: rest) locals shared = runActions rest locals' shared' := by
  rw [runActions, made, Exec.ok_bind]

theorem runActions_fault {action : Action ℓ σ} {rest : List (Action ℓ σ)} {locals : ℓ}
    {shared : σ} {fault : Fault} (stopped : action locals shared = .error fault) :
    runActions (action :: rest) locals shared = .error fault := by
  rw [runActions, stopped]
  rfl

/-! ## Threads -/

structure Running (ι ℓ σ : Type) where
  call : ι
  locals : ℓ
  /-- The actions that are still to be made. -/
  rest : List (Action ℓ σ)

/-- A call whose actions are made, and what it returns to its thread. -/
structure Returned (θ ι ο : Type) where
  thread : θ
  call : ι
  answer : ο

structure Threads (θ ι ℓ ο σ : Type) where
  shared : σ
  running : θ → Option (Running ι ℓ σ)
  /-- The calls that a thread is still to make. -/
  pending : θ → List ι
  /-- The calls that made their last action, oldest first. -/
  log : List (Returned θ ι ο)

def Threads.start (programs : θ → List ι) (shared : σ) : Threads θ ι ℓ ο σ where
  shared := shared
  running _ := none
  pending := programs
  log := []

def Threads.Finished (threads : Threads θ ι ℓ ο σ) : Prop :=
  ∀ thread, threads.running thread = none ∧ threads.pending thread = []

/-- The next action of a thread ends in this fault. -/
def Threads.Fails (threads : Threads θ ι ℓ ο σ) (thread : θ) (call : ι) (fault : Fault) : Prop :=
  ∃ locals action rest, threads.running thread = some ⟨call, locals, action :: rest⟩ ∧
    action locals threads.shared = .error fault

/-- A thread makes no step as long as the shared state is as it is. -/
def Threads.Waits (threads : Threads θ ι ℓ ο σ) (thread : θ) : Prop :=
  ∃ call, threads.Fails thread call .deadlock

def Threads.Faults (threads : Threads θ ι ℓ ο σ) (thread : θ) (call : ι) (fault : Fault) : Prop :=
  threads.Fails thread call fault ∧ fault ≠ .deadlock

variable [DecidableEq θ] (procedures : Procedures ι ℓ ο σ)

/-- One step of one thread: it begins a call, makes an action, or goes on behind a
call whose last action is made. -/
inductive Threads.Step : Threads θ ι ℓ ο σ → Threads θ ι ℓ ο σ → Prop where
  | enter {threads : Threads θ ι ℓ ο σ} {thread : θ} {call : ι} {calls : List ι}
      (idle : threads.running thread = none) (next : threads.pending thread = call :: calls) :
      Step threads
        { threads with
          running := Function.update threads.running thread
            (some ⟨call, procedures.entry call, procedures.body call⟩)
          pending := Function.update threads.pending thread calls }
  | work {threads : Threads θ ι ℓ ο σ} {thread : θ} {call : ι} {locals locals' : ℓ}
      {action next : Action ℓ σ} {rest : List (Action ℓ σ)} {shared : σ}
      (busy : threads.running thread = some ⟨call, locals, action :: next :: rest⟩)
      (made : action locals threads.shared = .ok (locals', shared)) :
      Step threads
        { threads with
          shared := shared
          running := Function.update threads.running thread
            (some ⟨call, locals', next :: rest⟩) }
  | last {threads : Threads θ ι ℓ ο σ} {thread : θ} {call : ι} {locals locals' : ℓ}
      {action : Action ℓ σ} {shared : σ}
      (busy : threads.running thread = some ⟨call, locals, [action]⟩)
      (made : action locals threads.shared = .ok (locals', shared)) :
      Step threads
        { threads with
          shared := shared
          running := Function.update threads.running thread (some ⟨call, locals', []⟩)
          log := threads.log ++ [⟨thread, call, procedures.answer call locals'⟩] }
  | leave {threads : Threads θ ι ℓ ο σ} {thread : θ} {call : ι} {locals : ℓ}
      (made : threads.running thread = some ⟨call, locals, []⟩) :
      Step threads
        { threads with running := Function.update threads.running thread none }

def Threads.Reaches : Threads θ ι ℓ ο σ → Threads θ ι ℓ ο σ → Prop :=
  Relation.ReflTransGen (Threads.Step procedures)

/-- A thread has made the first action of its call and not the last one. -/
def Threads.Inside (threads : Threads θ ι ℓ ο σ) (thread : θ) : Prop :=
  ∃ call locals rest, threads.running thread = some ⟨call, locals, rest⟩ ∧ rest ≠ [] ∧
    rest.length < (procedures.body call).length

/-! ## The calls one after the other -/

def callsOf (thread : θ) (log : List (Returned θ ι ο)) : List ι :=
  (log.filter fun returned => returned.thread = thread).map (·.call)

def answersOf (thread : θ) (log : List (Returned θ ι ο)) : List ο :=
  (log.filter fun returned => returned.thread = thread).map (·.answer)

/-- The calls of the log, made one after the other, give its answers. -/
def Serial (start : σ) (log : List (Returned θ ι ο)) (shared : σ) : Prop :=
  runCalls procedures.alone (log.map (·.call)) start = .ok (log.map (·.answer), shared)

/-- The call that a thread is making, if its last action is not made. -/
def current : Option (Running ι ℓ σ) → List ι
  | some ⟨call, _, _ :: _⟩ => [call]
  | _ => []

/-! ## Calls behind a mutex -/

variable (held : σ → Bool) (lock unlock : Action ℓ σ)

def Keeps (actions : List (Action ℓ σ)) : Prop :=
  ∀ action ∈ actions, ∀ locals shared locals' shared',
    action locals shared = .ok (locals', shared') → held shared' = held shared

/-- Every call takes the mutex with its first action, keeps it and gives it back with
its last action. -/
structure Guarded : Prop where
  body : ∀ call, ∃ inner, procedures.body call = lock :: (inner ++ [unlock]) ∧ Keeps held inner
  waits : ∀ locals shared, held shared = true → lock locals shared = .error .deadlock
  takes : ∀ locals shared, held shared = false →
    ∃ shared', lock locals shared = .ok (locals, shared') ∧ held shared' = true
  gives : ∀ locals shared, ∃ shared', unlock locals shared = .ok (locals, shared') ∧
    held shared' = false

/-- A call that has taken the mutex, with what is left of it to do. -/
structure Holding (shared between : σ) (call : ι) (locals : ℓ) (rest : List (Action ℓ σ)) :
    Prop where
  ends : ∃ inner, rest = inner ++ [unlock] ∧ Keeps held inner
  begun : rest.length < (procedures.body call).length
  left : runActions rest locals shared =
    runActions (procedures.body call) (procedures.entry call) between

/-- What holds however the steps of the threads are interleaved.  The owner is the
thread that has taken the mutex, and the calls of the log lead to the state between. -/
structure InOrder (programs : θ → List ι) (start : σ) (threads : Threads θ ι ℓ ο σ)
    (owner : Option θ) (between : σ) : Prop where
  serial : Serial procedures start threads.log between
  program : ∀ thread, programs thread = callsOf thread threads.log ++
    current (threads.running thread) ++ threads.pending thread
  taken : held threads.shared = owner.isSome
  free : owner = none → threads.shared = between
  /-- The other threads have made no action of their calls, or all. -/
  others : ∀ thread call locals rest, owner ≠ some thread →
    threads.running thread = some ⟨call, locals, rest⟩ →
      rest = [] ∨ locals = procedures.entry call ∧ rest = procedures.body call
  inside : ∀ thread, owner = some thread → ∃ call locals rest,
    threads.running thread = some ⟨call, locals, rest⟩ ∧
      Holding procedures held unlock threads.shared between call locals rest

variable {procedures held lock unlock} {programs : θ → List ι} {start between : σ}
  {owner : Option θ} {threads threads' : Threads θ ι ℓ ο σ}

theorem callsOf_concat (thread : θ) (log : List (Returned θ ι ο)) (returned : Returned θ ι ο) :
    callsOf thread (log ++ [returned]) =
      callsOf thread log ++ if returned.thread = thread then [returned.call] else [] := by
  by_cases own : returned.thread = thread <;> simp [callsOf, own]

/-- One more call at the end of a run. -/
theorem runCalls_concat {call : ι → σ → Exec (ο × σ)} {calls : List ι} {answers : List ο}
    {state : σ} (last : ι) (ran : runCalls call calls start = .ok (answers, state)) :
    runCalls call (calls ++ [last]) start =
      (call last state >>= fun outcome => .ok (answers ++ [outcome.1], outcome.2)) := by
  induction calls generalizing start answers with
  | nil =>
      cases ran
      rfl
  | cons first calls ih =>
      obtain ⟨⟨answer, next⟩, called, rest⟩ := Exec.bind_eq_ok.mp ran
      obtain ⟨⟨others, final⟩, others_ran, finished⟩ := Exec.bind_eq_ok.mp rest
      cases finished
      rw [List.cons_append, runCalls, called, Exec.ok_bind]
      dsimp only
      rw [ih others_ran]
      cases call last state with
      | error fault => rfl
      | ok outcome => rfl

theorem inOrder_start (programs : θ → List ι) (free : held start = false) :
    InOrder procedures held unlock programs start (.start programs start) none start where
  serial := rfl
  program _ := rfl
  taken := free
  free _ := rfl
  others _ _ _ _ _ impossible := by cases impossible
  inside _ owned := by cases owned

/-- A call has a first and a last action. -/
theorem Guarded.body_ne_singleton (guarded : Guarded procedures held lock unlock) (call : ι)
    (action : Action ℓ σ) : procedures.body call ≠ [action] := by
  obtain ⟨inner, body, -⟩ := guarded.body call
  rw [body]
  simp

namespace InOrder

variable (inOrder : InOrder procedures held unlock programs start threads owner between)
include inOrder

/-- The owner is the one thread in a critical section. -/
theorem inside_iff {thread : θ} : threads.Inside procedures thread ↔ owner = some thread := by
  constructor
  · rintro ⟨call, locals, rest, busy, unfinished, begun⟩
    by_contra other
    rcases inOrder.others thread call locals rest other busy with made | ⟨-, rfl⟩
    · exact unfinished made
    · exact lt_irrefl _ begun
  · intro owned
    obtain ⟨call, locals, rest, busy, holding⟩ := inOrder.inside thread owned
    obtain ⟨inner, ends, -⟩ := holding.ends
    exact ⟨call, locals, rest, busy, by simp [ends], holding.begun⟩

/-- At most one thread is in a critical section. -/
theorem excludes {thread other : θ} (inside : threads.Inside procedures thread)
    (insideOther : threads.Inside procedures other) : other = thread := by
  have owned := inOrder.inside_iff.mp inside
  rw [inOrder.inside_iff.mp insideOther] at owned
  exact Option.some.inj owned

theorem owner_none (free : held threads.shared = false) : owner = none := by
  rw [inOrder.taken] at free
  exact Option.isNone_iff_eq_none.mp (Option.isSome_eq_false_iff.mp free)

theorem taken_iff : held threads.shared = true ↔ ∃ thread, threads.Inside procedures thread := by
  rw [inOrder.taken, Option.isSome_iff_exists]
  exact exists_congr fun thread => inOrder.inside_iff.symm

theorem enter (guarded : Guarded procedures held lock unlock) {thread : θ} {call : ι}
    {calls : List ι} (idle : threads.running thread = none)
    (next : threads.pending thread = call :: calls) :
    InOrder procedures held unlock programs start
      { threads with
        running := Function.update threads.running thread
          (some ⟨call, procedures.entry call, procedures.body call⟩)
        pending := Function.update threads.pending thread calls } owner between where
  serial := inOrder.serial
  program other := by
    rw [inOrder.program other]
    by_cases same : other = thread
    · subst same
      obtain ⟨inner, body, -⟩ := guarded.body call
      rw [idle, next]
      simp [current, body]
    · simp only [Function.update_of_ne same]
  taken := inOrder.taken
  free := inOrder.free
  others other call' locals rest foreign busy := by
    by_cases same : other = thread
    · subst same
      simp only [Function.update_self] at busy
      cases busy
      exact .inr ⟨rfl, rfl⟩
    · simp only [Function.update_of_ne same] at busy
      exact inOrder.others other call' locals rest foreign busy
  inside other owned := by
    obtain ⟨call', locals, rest, busy, holding⟩ := inOrder.inside other owned
    have differs : other ≠ thread := by
      rintro rfl
      rw [idle] at busy
      cases busy
    exact ⟨call', locals, rest, (Function.update_of_ne differs _ _).trans busy, holding⟩

theorem leave {thread : θ} {call : ι} {locals : ℓ}
    (made : threads.running thread = some ⟨call, locals, []⟩) :
    InOrder procedures held unlock programs start
      { threads with running := Function.update threads.running thread none }
      owner between where
  serial := inOrder.serial
  program other := by
    rw [inOrder.program other]
    by_cases same : other = thread
    · subst same
      rw [made]
      simp [current]
    · simp only [Function.update_of_ne same]
  taken := inOrder.taken
  free := inOrder.free
  others other call' locals' rest foreign busy := by
    by_cases same : other = thread
    · subst same
      simp only [Function.update_self] at busy
      cases busy
    · simp only [Function.update_of_ne same] at busy
      exact inOrder.others other call' locals' rest foreign busy
  inside other owned := by
    obtain ⟨call', locals', rest, busy, holding⟩ := inOrder.inside other owned
    have differs : other ≠ thread := by
      rintro rfl
      rw [made] at busy
      cases busy
      obtain ⟨inner, ends, -⟩ := holding.ends
      simp at ends
    exact ⟨call', locals', rest, (Function.update_of_ne differs _ _).trans busy, holding⟩

/-- A thread that has the mutex after an action that is not its last one. -/
theorem goes {thread : θ} {call : ι} {locals locals' : ℓ} {action next : Action ℓ σ}
    {rest : List (Action ℓ σ)} {shared : σ}
    (busy : threads.running thread = some ⟨call, locals, action :: next :: rest⟩)
    (free : ∀ other, owner = some other → other = thread) (taken : held shared = true)
    (holding : Holding procedures held unlock shared between call locals' (next :: rest)) :
    InOrder procedures held unlock programs start
      { threads with
        shared := shared
        running := Function.update threads.running thread (some ⟨call, locals', next :: rest⟩) }
      (some thread) between where
  serial := inOrder.serial
  program other := by
    rw [inOrder.program other]
    by_cases same : other = thread
    · subst same
      rw [busy]
      simp [current]
    · simp only [Function.update_of_ne same]
  taken := taken
  free impossible := by cases impossible
  others other call' locals'' rest' foreign busy' := by
    have differs : other ≠ thread := fun same => foreign (congrArg some same.symm)
    simp only [Function.update_of_ne differs] at busy'
    exact inOrder.others other call' locals'' rest' (fun owned => differs (free other owned)) busy'
  inside other owned := by
    cases owned
    exact ⟨call, locals', next :: rest, Function.update_self _ _ _, holding⟩

/-- A first action takes the mutex, which is free, and the next ones are made by its
owner. -/
theorem work (guarded : Guarded procedures held lock unlock) {thread : θ} {call : ι}
    {locals locals' : ℓ} {action next : Action ℓ σ} {rest : List (Action ℓ σ)} {shared : σ}
    (busy : threads.running thread = some ⟨call, locals, action :: next :: rest⟩)
    (made : action locals threads.shared = .ok (locals', shared)) :
    InOrder procedures held unlock programs start
      { threads with
        shared := shared
        running := Function.update threads.running thread (some ⟨call, locals', next :: rest⟩) }
      (some thread) between := by
  by_cases own : owner = some thread
  · obtain ⟨_, _, _, busy', holding⟩ := inOrder.inside thread own
    rw [busy] at busy'
    cases busy'
    obtain ⟨inner, ends, keeps⟩ := holding.ends
    cases inner with
    | nil => simp at ends
    | cons first inner =>
        rw [List.cons_append] at ends
        obtain ⟨rfl, tail⟩ := List.cons.inj ends
        refine inOrder.goes busy (fun other owned => ?_) ?_ ⟨⟨inner, tail, ?_⟩, ?_, ?_⟩
        · rw [own] at owned
          exact (Option.some.inj owned).symm
        · rw [keeps _ List.mem_cons_self _ _ _ _ made, inOrder.taken, own]
          rfl
        · exact fun other member => keeps other (List.mem_cons_of_mem _ member)
        · exact lt_trans (Nat.lt_succ_self _) holding.begun
        · rw [← holding.left, runActions_cons made]
  · rcases inOrder.others thread _ _ _ own busy with impossible | ⟨rfl, whole⟩
    · cases impossible
    · obtain ⟨inner, body, keeps⟩ := guarded.body call
      rw [body] at whole
      obtain ⟨rfl, tail⟩ := List.cons.inj whole
      have free : held threads.shared = false := by
        rw [← Bool.not_eq_true]
        intro taken
        rw [guarded.waits _ _ taken] at made
        cases made
      obtain ⟨shared', took, taken⟩ := guarded.takes (procedures.entry call) _ free
      rw [took] at made
      cases made
      have unowned := inOrder.owner_none free
      refine inOrder.goes busy (fun other owned => ?_) taken ⟨⟨inner, tail, keeps⟩, ?_, ?_⟩
      · rw [unowned] at owned
        cases owned
      · rw [tail, body]
        exact Nat.lt_succ_self _
      · rw [← inOrder.free unowned, body, runActions_cons took, tail]

/-- The last action of a call gives the mutex back, and the call is the next one of
the serial run. -/
theorem last (guarded : Guarded procedures held lock unlock) {thread : θ} {call : ι}
    {locals locals' : ℓ} {action : Action ℓ σ} {shared : σ}
    (busy : threads.running thread = some ⟨call, locals, [action]⟩)
    (made : action locals threads.shared = .ok (locals', shared)) :
    InOrder procedures held unlock programs start
      { threads with
        shared := shared
        running := Function.update threads.running thread (some ⟨call, locals', []⟩)
        log := threads.log ++ [⟨thread, call, procedures.answer call locals'⟩] }
      none shared := by
  have own : owner = some thread := by
    by_contra other
    rcases inOrder.others thread _ _ _ other busy with impossible | ⟨-, whole⟩
    · cases impossible
    · exact guarded.body_ne_singleton call action whole.symm
  obtain ⟨_, _, _, busy', holding⟩ := inOrder.inside thread own
  rw [busy] at busy'
  cases busy'
  obtain ⟨inner, ends, -⟩ := holding.ends
  rw [← List.nil_append [action]] at ends
  obtain ⟨-, same⟩ := List.append_inj' ends rfl
  cases same
  obtain ⟨shared', gave, free⟩ := guarded.gives locals threads.shared
  rw [gave] at made
  cases made
  have called : procedures.alone call between = .ok (procedures.answer call locals, shared) := by
    rw [Procedures.alone, ← holding.left, runActions_cons gave]
    rfl
  exact
    { serial := by
        rw [Serial, List.map_append, List.map_append]
        exact (runCalls_concat call inOrder.serial).trans (by rw [called]; rfl)
      program := fun other => by
        rw [inOrder.program other, callsOf_concat]
        by_cases same : other = thread
        · subst same
          rw [busy]
          simp [current]
        · simp [Function.update_of_ne same, Ne.symm same]
      taken := free
      free := fun _ => rfl
      others := fun other call' locals' rest _ busy' => by
        by_cases same : other = thread
        · subst same
          simp only [Function.update_self] at busy'
          cases busy'
          exact .inl rfl
        · simp only [Function.update_of_ne same] at busy'
          refine inOrder.others other call' locals' rest (fun owned => same ?_) busy'
          rw [own] at owned
          exact (Option.some.inj owned).symm
      inside := fun _ owned => by cases owned }

theorem step (guarded : Guarded procedures held lock unlock)
    (step : Threads.Step procedures threads threads') :
    ∃ owner' between', InOrder procedures held unlock programs start threads' owner' between' := by
  cases step with
  | enter idle next => exact ⟨owner, between, inOrder.enter guarded idle next⟩
  | work busy made => exact ⟨_, between, inOrder.work guarded busy made⟩
  | last busy made => exact ⟨none, _, inOrder.last guarded busy made⟩
  | leave made => exact ⟨owner, between, inOrder.leave made⟩

/-- An action of the owner fails as its call does in the serial run, and that of
another thread waits for the owner. -/
theorem fails (guarded : Guarded procedures held lock unlock) {thread : θ} {call : ι}
    {fault : Fault} (failed : threads.Fails thread call fault) :
    owner = some thread ∧ procedures.alone call between = .error fault ∨
      fault = .deadlock ∧ ∃ other, other ≠ thread ∧ owner = some other := by
  obtain ⟨locals, action, rest, busy, stopped⟩ := failed
  by_cases own : owner = some thread
  · obtain ⟨_, _, _, busy', holding⟩ := inOrder.inside thread own
    rw [busy] at busy'
    cases busy'
    refine .inl ⟨own, ?_⟩
    rw [Procedures.alone, ← holding.left, runActions_fault stopped]
    rfl
  · rcases inOrder.others thread _ _ _ own busy with impossible | ⟨rfl, whole⟩
    · cases impossible
    · obtain ⟨inner, body, -⟩ := guarded.body call
      rw [body] at whole
      obtain ⟨rfl, -⟩ := List.cons.inj whole
      cases taken : held threads.shared with
      | false =>
          obtain ⟨shared', took, -⟩ := guarded.takes (procedures.entry call) _ taken
          rw [stopped] at took
          cases took
      | true =>
          rw [guarded.waits _ _ taken] at stopped
          cases stopped
          rw [inOrder.taken] at taken
          obtain ⟨other, owned⟩ := Option.isSome_iff_exists.mp taken
          exact .inr ⟨rfl, other, fun same => own (same ▸ owned), owned⟩

/-- The owner goes on or fails, and a free mutex can be taken. -/
theorem progress (guarded : Guarded procedures held lock unlock)
    (unfinished : ¬ threads.Finished) :
    (∃ threads', Threads.Step procedures threads threads') ∨
      ∃ thread call fault, owner = some thread ∧ threads.Fails thread call fault := by
  cases owned : owner with
  | some thread =>
      obtain ⟨call, locals, rest, busy, holding⟩ := inOrder.inside thread owned
      obtain ⟨inner, ends, -⟩ := holding.ends
      cases rest with
      | nil => simp at ends
      | cons action rest =>
          cases made : action locals threads.shared with
          | error fault => exact .inr ⟨thread, call, fault, rfl, locals, action, rest, busy, made⟩
          | ok outcome =>
              cases rest with
              | nil => exact .inl ⟨_, .last busy made⟩
              | cons next rest => exact .inl ⟨_, .work busy made⟩
  | none =>
      left
      obtain ⟨thread, waits⟩ := not_forall.mp unfinished
      cases busy : threads.running thread with
      | none =>
          obtain ⟨call, calls, next⟩ :=
            List.exists_cons_of_ne_nil fun empty => waits ⟨busy, empty⟩
          exact ⟨_, .enter busy next⟩
      | some running =>
          obtain ⟨call, locals, rest⟩ := running
          rcases inOrder.others thread call locals rest (by simp [owned]) busy with
            rfl | ⟨rfl, whole⟩
          · exact ⟨_, .leave busy⟩
          · obtain ⟨inner, body, -⟩ := guarded.body call
            obtain ⟨next, rest', tail⟩ :=
              List.exists_cons_of_ne_nil (show inner ++ [unlock] ≠ [] by simp)
            have free : held threads.shared = false := by rw [inOrder.taken, owned]; rfl
            obtain ⟨shared', took, -⟩ := guarded.takes (procedures.entry call) _ free
            rw [whole, body, tail] at busy
            exact ⟨_, .work busy took⟩

end InOrder

/-- Every interleaving is in order. -/
theorem inOrder_of_reaches (guarded : Guarded procedures held lock unlock)
    (free : held start = false)
    (reaches : Threads.Reaches procedures (.start programs start) threads) :
    ∃ owner between, InOrder procedures held unlock programs start threads owner between := by
  induction reaches with
  | refl => exact ⟨none, start, inOrder_start programs free⟩
  | tail _ step ih =>
      obtain ⟨owner, between, inOrder⟩ := ih
      exact inOrder.step guarded step

end M2Handler.Machine

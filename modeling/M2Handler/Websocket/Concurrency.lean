import M2Handler.Machine.Mutex
import M2Handler.Websocket.SessionRuns

/-!
# Threads that share a session store

Several threads call the functions of one store, action by action: lock and unlock
are called like the functions of the dictionary.  The calls take effect one after the
other, in the order in which they give the mutex back, and no interleaving stops all
threads.  Threads that keep to connections of their own do not notice each other.
-/

namespace M2Handler.Websocket.Session

open Machine RedBlack Adt Handler

variable {θ ℓ : Type} [DecidableEq θ]

/-! ## The functions in actions -/

def lockAction : Action ℓ M2WsSessionsState := fun locals state => do
  let ((), state) ← mongrel2WsSessionsStateLock state
  return (locals, state)

def unlockAction : Action ℓ M2WsSessionsState := fun locals state => do
  let ((), state) ← mongrel2WsSessionsStateUnlock state
  return (locals, state)

def dictAction (step : Action ℓ (Dict M2WsSessionId)) : Action ℓ M2WsSessionsState :=
  fun locals => onDict (step locals)

/-- The functions in actions, with steps on the dictionary of any size: each calls lock,
works on the dictionary and calls unlock.  Alone it does what the function does, in
whatever state the mutex is. -/
structure Divides (procedures : Procedures SessionCall ℓ Int M2WsSessionsState) : Prop where
  cut : ∀ call, ∃ steps : List (Action ℓ (Dict M2WsSessionId)),
    procedures.body call = lockAction :: (steps.map dictAction ++ [unlockAction])
  runs : ∀ call state, procedures.alone call state = call.run state

def lookupStep (req : Mongrel2Request) : Action Pointer (Dict M2WsSessionId) :=
  fun _ => dictLookup compareSessionId { req }

/-- One action for each call that the functions make, in the order of the source. -/
def sessionProcedures : Procedures SessionCall Pointer Int M2WsSessionsState where
  entry _ := .null
  body
    | .add req => [lockAction, dictAction fun tempnode dict => do
        let (_, dict) ← dictAllocInsert compareSessionId { req } dict
        return (tempnode, dict), unlockAction]
    | .remove req => [lockAction, dictAction (lookupStep req), dictAction fun tempnode dict => do
        let ((), dict) ← dictDeleteFree tempnode dict
        return (tempnode, dict), unlockAction]
    | .contains req => [lockAction, dictAction (lookupStep req), unlockAction]
  answer
    | .contains _, tempnode => if tempnode = .null then 0 else 1
    | _, _ => 0

section Actions

variable {step : Action ℓ (Dict M2WsSessionId)} {locals locals' : ℓ}
  {dict dict' : Dict M2WsSessionId}

theorem dictAction_ok (made : step locals dict = .ok (locals', dict')) (locked : Bool) :
    dictAction step locals { dict, locked } = .ok (locals', { dict := dict', locked }) := by
  rw [dictAction, onDict, made, Exec.ok_bind]
  rfl

theorem dictAction_fault {fault : Fault} (stopped : step locals dict = .error fault)
    (locked : Bool) : dictAction step locals { dict, locked } = .error fault := by
  rw [dictAction, onDict, stopped]
  rfl

/-- Only the calls of lock and unlock change the mutex. -/
theorem dictAction_locked {shared shared' : M2WsSessionsState}
    (made : dictAction step locals shared = .ok (locals', shared')) :
    shared'.locked = shared.locked := by
  obtain ⟨outcome, -, same⟩ := Exec.bind_eq_ok.mp made
  cases same
  rfl

theorem lockAction_free (locals : ℓ) (dict : Dict M2WsSessionId) :
    lockAction locals { dict, locked := false } = .ok (locals, { dict, locked := true }) := rfl

end Actions

section Alone

variable (req : Mongrel2Request) (dict : Dict M2WsSessionId)

theorem alone_add : sessionProcedures.alone (.add req) { dict, locked := false } =
    mongrel2WsSessionsStateAdd req { dict, locked := false } := by
  rw [mongrel2WsSessionsStateAdd, lock_bind, Procedures.alone, sessionProcedures]
  dsimp only
  rw [runActions_cons (lockAction_free _ dict)]
  cases inserted : dictAllocInsert compareSessionId { req } dict with
  | error fault =>
      rw [onDict_fault inserted,
        runActions_fault (dictAction_fault (by rw [inserted]; rfl) true)]
      rfl
  | ok outcome =>
      rw [onDict_bind inserted, runActions_cons (dictAction_ok (by rw [inserted]; rfl) true)]
      rfl

theorem alone_remove : sessionProcedures.alone (.remove req) { dict, locked := false } =
    mongrel2WsSessionsStateRemove req { dict, locked := false } := by
  rw [mongrel2WsSessionsStateRemove, lock_bind, Procedures.alone, sessionProcedures]
  dsimp only
  rw [runActions_cons (lockAction_free _ dict)]
  cases looked : dictLookup compareSessionId { req } dict with
  | error fault =>
      rw [onDict_fault looked, runActions_fault (dictAction_fault looked true)]
      rfl
  | ok outcome =>
      obtain ⟨tempnode, between⟩ := outcome
      rw [onDict_bind looked, runActions_cons (dictAction_ok looked true)]
      cases deleted : dictDeleteFree tempnode between with
      | error fault =>
          rw [onDict_fault deleted,
            runActions_fault (dictAction_fault (by rw [deleted]; rfl) true)]
          rfl
      | ok outcome =>
          rw [onDict_bind deleted, runActions_cons (dictAction_ok (by rw [deleted]; rfl) true)]
          rfl

theorem alone_contains : sessionProcedures.alone (.contains req) { dict, locked := false } =
    mongrel2WsSessionsStateContains req { dict, locked := false } := by
  rw [mongrel2WsSessionsStateContains, lock_bind, Procedures.alone, sessionProcedures]
  dsimp only
  rw [runActions_cons (lockAction_free _ dict)]
  cases looked : dictLookup compareSessionId { req } dict with
  | error fault =>
      rw [onDict_fault looked, runActions_fault (dictAction_fault looked true)]
      rfl
  | ok outcome =>
      obtain ⟨tempnode, between⟩ := outcome
      rw [onDict_bind looked, runActions_cons (dictAction_ok looked true)]
      cases tempnode <;> rfl

end Alone

theorem divides_sessionProcedures : Divides sessionProcedures where
  cut call := by
    cases call with
    | add req => exact ⟨[_], rfl⟩
    | remove req => exact ⟨[_, _], rfl⟩
    | contains req => exact ⟨[_], rfl⟩
  runs call state := by
    obtain ⟨dict, locked⟩ := state
    cases locked with
    | true => cases call <;> rfl
    | false =>
        cases call with
        | add req => exact alone_add req dict
        | remove req => exact alone_remove req dict
        | contains req => exact alone_contains req dict

/-! ## Threads that share a store -/

/-- A call alone faults only at the removal of an id that is not in the bag. -/
theorem run_fails {state : M2WsSessionsState} {ids : Multiset Int32}
    (represents : Represents state ids) {call : SessionCall} {fault : Fault}
    (failed : call.run state = .error fault) :
    fault = .nullPointer ∧ ∃ req, call = .remove req ∧ req.connId ∉ ids := by
  by_cases allowed : bag.allowed ids call
  · obtain ⟨state', returned, -⟩ := refines_bag.returns call represents allowed
    rw [failed] at returned
    cases returned
  · cases call with
    | add req => exact absurd trivial allowed
    | remove req =>
        rw [SessionCall.run, remove_faults represents allowed] at failed
        cases failed
        exact ⟨rfl, req, rfl, allowed⟩
    | contains req => exact absurd trivial allowed

section Interleaved

variable {procedures : Procedures SessionCall ℓ Int M2WsSessionsState}
  (divides : Divides procedures)
include divides

theorem guarded_of_divides :
    Guarded procedures M2WsSessionsState.locked lockAction unlockAction where
  body call := by
    obtain ⟨steps, body⟩ := divides.cut call
    refine ⟨steps.map dictAction, body, fun action member locals shared locals' shared' made => ?_⟩
    obtain ⟨step, -, rfl⟩ := List.mem_map.mp member
    exact dictAction_locked made
  waits locals shared taken := by
    rw [lockAction, mongrel2WsSessionsStateLock, if_pos taken]
    rfl
  takes locals shared free := by
    obtain ⟨dict, locked⟩ := shared
    cases free
    exact ⟨_, lockAction_free locals dict, rfl⟩
  gives _ _ := ⟨_, rfl, rfl⟩

theorem alone_eq_run : procedures.alone = SessionCall.run :=
  funext fun call => funext fun state => divides.runs call state

variable {programs : θ → List SessionCall} {state : M2WsSessionsState} {ids : Multiset Int32}
  {threads : Threads θ SessionCall ℓ Int M2WsSessionsState} {owner : Option θ}
  {between : M2WsSessionsState}

/-- What the calls of an interleaving did to the bag. -/
theorem bag_of_inOrder (represents : Represents state ids)
    (inOrder : InOrder procedures M2WsSessionsState.locked unlockAction programs state threads
      owner between) :
    runCalls SessionCall.run (threads.log.map (·.call)) state =
        .ok (threads.log.map (·.answer), between) ∧
      bag.AllowedFrom ids (threads.log.map (·.call)) ∧
      threads.log.map (·.answer) = bag.answers ids (threads.log.map (·.call)) ∧
      Represents between (bag.after ids (threads.log.map (·.call))) := by
  have serial := inOrder.serial
  rw [Serial, alone_eq_run divides] at serial
  exact ⟨serial, refines_bag.run_inv represents serial⟩

/-- A thread whose action fails makes a removal of an id that is not in the bag, or
waits for a thread that has the mutex. -/
theorem fails_of_inOrder (represents : Represents state ids)
    (inOrder : InOrder procedures M2WsSessionsState.locked unlockAction programs state threads
      owner between) {thread : θ} {call : SessionCall} {fault : Fault}
    (failed : threads.Fails thread call fault) :
    fault = .nullPointer ∧
        (∃ req, call = .remove req ∧ req.connId ∉ bag.after ids (threads.log.map (·.call))) ∨
      fault = .deadlock ∧ ∃ other, other ≠ thread ∧ threads.Inside procedures other := by
  obtain ⟨-, -, -, after⟩ := bag_of_inOrder divides represents inOrder
  rcases inOrder.fails (guarded_of_divides divides) failed with ⟨-, stopped⟩ | ⟨waits, other⟩
  · rw [alone_eq_run divides] at stopped
    exact .inl (run_fails after stopped)
  · obtain ⟨other, differs, owned⟩ := other
    exact .inr ⟨waits, other, differs, inOrder.inside_iff.mpr owned⟩

/-- The owner of the mutex goes on or faults, and a free mutex is taken. -/
theorem progress_of_inOrder (represents : Represents state ids)
    (inOrder : InOrder procedures M2WsSessionsState.locked unlockAction programs state threads
      owner between) :
    threads.Finished ∨ (∃ threads', Threads.Step procedures threads threads') ∨
      ∃ thread call fault, threads.Faults thread call fault := by
  by_cases finished : threads.Finished
  · exact .inl finished
  · rcases inOrder.progress (guarded_of_divides divides) finished with
      step | ⟨thread, call, fault, owned, failed⟩
    · exact .inr (.inl step)
    · refine .inr (.inr ⟨thread, call, fault, failed, ?_⟩)
      rcases fails_of_inOrder divides represents inOrder failed with
        ⟨rfl, -⟩ | ⟨-, other, differs, inside⟩
      · decide
      · exact absurd (inOrder.excludes (inOrder.inside_iff.mpr owned) inside) differs

/-- However the actions of the threads are interleaved, lock and unlock among them: one
thread at most is between its lock and its unlock, exactly while the mutex is held; the
calls did what they do one after the other, in the order of their unlocks; a fault is
the removal of an id that is not in the bag; a thread waits only for one that has the
mutex, and some thread can go on. -/
theorem interleaved_calls_serial (represents : Represents state ids)
    (reaches : Threads.Reaches procedures (.start programs state) threads) :
    (∀ thread other, threads.Inside procedures thread → threads.Inside procedures other →
      other = thread) ∧
    (threads.shared.locked = true ↔ ∃ thread, threads.Inside procedures thread) ∧
    (∀ thread, programs thread = callsOf thread threads.log ++
      current (threads.running thread) ++ threads.pending thread) ∧
    (∃ between, runCalls SessionCall.run (threads.log.map (·.call)) state =
        .ok (threads.log.map (·.answer), between) ∧
      (threads.shared.locked = false → threads.shared = between) ∧
      Represents between (bag.after ids (threads.log.map (·.call)))) ∧
    threads.log.map (·.answer) = bag.answers ids (threads.log.map (·.call)) ∧
    (∀ thread call fault, threads.Faults thread call fault → fault = .nullPointer ∧
      ∃ req, call = .remove req ∧ req.connId ∉ bag.after ids (threads.log.map (·.call))) ∧
    (∀ thread, threads.Waits thread → ∃ other, other ≠ thread ∧ threads.Inside procedures other) ∧
    (threads.Finished ∨ (∃ threads', Threads.Step procedures threads threads') ∨
      ∃ thread call fault, threads.Faults thread call fault) := by
  have guarded := guarded_of_divides divides
  obtain ⟨owner, between, inOrder⟩ := inOrder_of_reaches guarded represents.1 reaches
  obtain ⟨ran, -, answers, after⟩ := bag_of_inOrder divides represents inOrder
  refine ⟨fun thread other inside insideOther => inOrder.excludes inside insideOther,
    inOrder.taken_iff, inOrder.program, ⟨between, ran, fun free => ?_, after⟩, answers, ?_, ?_,
    progress_of_inOrder divides represents inOrder⟩
  · exact inOrder.free (inOrder.owner_none free)
  · rintro thread call fault ⟨failed, stops⟩
    rcases fails_of_inOrder divides represents inOrder failed with faulted | ⟨waits, -⟩
    · exact faulted
    · exact absurd waits stops
  · rintro thread ⟨call, failed⟩
    rcases fails_of_inOrder divides represents inOrder failed with ⟨impossible, -⟩ | ⟨-, other⟩
    · cases impossible
    · exact other

end Interleaved

/-! ## Connections of their own -/

/-- No two threads make calls for the same connection id. -/
def Apart (programs : θ → List SessionCall) : Prop :=
  ∀ thread other, ∀ call ∈ programs thread, ∀ call' ∈ programs other,
    call.connId = call'.connId → thread = other

/-- The calls of other threads leave the connections of a thread as they are. -/
theorem live_callsOf {log : List (Returned θ SessionCall Int)} {thread : θ} {id : Int32}
    (own : ∀ returned ∈ log, returned.call.connId = id → returned.thread = thread) :
    Live (log.map (·.call)) id ↔ Live (callsOf thread log) id := by
  induction log using List.reverseRecOn with
  | nil => exact Iff.rfl
  | append_singleton log returned ih =>
      have before := ih fun earlier member => own earlier (List.mem_append_left _ member)
      have last := own returned (List.mem_append_right _ (List.mem_singleton.mpr rfl))
      rw [List.map_append, List.map_singleton, live_concat, callsOf_concat]
      by_cases same : returned.thread = thread
      · rw [if_pos same, live_concat]
        cases returned.call <;> simp only [before]
      · have differs : returned.call.connId ≠ id := fun equal => same (last equal)
        rw [if_neg same, List.append_nil, ← before]
        cases called : returned.call with
        | add req =>
            rw [called] at differs
            exact or_iff_right differs
        | remove req =>
            rw [called] at differs
            exact and_iff_left differs
        | contains req => exact Iff.rfl

theorem turn_callsOf {log : List (Returned θ SessionCall Int)} {thread : θ} {call : SessionCall}
    (own : ∀ returned ∈ log, returned.call.connId = call.connId → returned.thread = thread) :
    Turn (log.map (·.call)) call ↔ Turn (callsOf thread log) call := by
  cases call with
  | add req => exact not_congr (live_callsOf own)
  | remove req => exact live_callsOf own
  | contains req => exact Iff.rfl

/-- A call of the log is in the program of its thread. -/
theorem mem_program {programs : θ → List SessionCall} {log : List (Returned θ SessionCall Int)}
    (made : ∀ thread, ∃ rest, programs thread = callsOf thread log ++ rest)
    {returned : Returned θ SessionCall Int} (inLog : returned ∈ log) :
    returned.call ∈ programs returned.thread := by
  obtain ⟨rest, whole⟩ := made returned.thread
  rw [whole]
  refine List.mem_append_left _ (List.mem_map.mpr ⟨returned, ?_, rfl⟩)
  exact List.mem_filter.mpr ⟨inLog, decide_eq_true rfl⟩

section Apart

variable {programs : θ → List SessionCall} {log : List (Returned θ SessionCall Int)}
  (apart : Apart programs)
  (made : ∀ thread, ∃ rest, programs thread = callsOf thread log ++ rest)
include apart made

/-- A logged call for a connection of a thread is a call of this thread. -/
theorem own_of_apart {thread : θ} {call : SessionCall} (member : call ∈ programs thread) :
    ∀ returned ∈ log, returned.call.connId = call.connId → returned.thread = thread := by
  intro returned inLog same
  exact apart _ _ _ (mem_program made inLog) _ member same

theorem turn_of_apart (inTurn : ∀ thread, InTurn (programs thread)) {thread : θ}
    {call : SessionCall} {rest : List SessionCall}
    (next : programs thread = callsOf thread log ++ call :: rest) :
    Turn (log.map (·.call)) call := by
  have member : call ∈ programs thread := by simp [next]
  exact (turn_callsOf (own_of_apart apart made member)).mpr (inTurn thread _ call rest next)

end Apart

/-- A shorter log has fewer calls of each thread. -/
theorem made_of_concat {programs : θ → List SessionCall}
    {log : List (Returned θ SessionCall Int)} {returned : Returned θ SessionCall Int}
    (made : ∀ thread, ∃ rest, programs thread = callsOf thread (log ++ [returned]) ++ rest) :
    (∀ thread, ∃ rest, programs thread = callsOf thread log ++ rest) ∧
      ∃ rest, programs returned.thread = callsOf returned.thread log ++ returned.call :: rest := by
  constructor
  · intro thread
    obtain ⟨rest, whole⟩ := made thread
    rw [callsOf_concat, List.append_assoc] at whole
    exact ⟨_, whole⟩
  · obtain ⟨rest, whole⟩ := made returned.thread
    rw [callsOf_concat, if_pos rfl, List.append_assoc] at whole
    exact ⟨rest, whole⟩

/-- The log of such threads is in turn. -/
theorem inTurn_log {programs : θ → List SessionCall} {log : List (Returned θ SessionCall Int)}
    (apart : Apart programs) (inTurn : ∀ thread, InTurn (programs thread))
    (made : ∀ thread, ∃ rest, programs thread = callsOf thread log ++ rest) :
    InTurn (log.map (·.call)) := by
  induction log using List.reverseRecOn with
  | nil => exact inTurn_nil
  | append_singleton log returned ih =>
      obtain ⟨before, rest, next⟩ := made_of_concat made
      rw [List.map_append, List.map_singleton]
      exact inTurn_concat.mpr ⟨ih before, turn_of_apart apart before inTurn next⟩

theorem answersOf_concat (thread : θ) (log : List (Returned θ SessionCall Int))
    (returned : Returned θ SessionCall Int) :
    answersOf thread (log ++ [returned]) =
      answersOf thread log ++ if returned.thread = thread then [returned.answer] else [] := by
  by_cases own : returned.thread = thread <;> simp [answersOf, own]

theorem answers_concat (ids : Multiset Int32) (calls : List SessionCall) (call : SessionCall) :
    bag.answers ids (calls ++ [call]) =
      bag.answers ids calls ++ [bag.answer (bag.after ids calls) call] := by
  induction calls generalizing ids with
  | nil => rfl
  | cons first calls ih => exact congrArg _ (ih _)

theorem InTurn.of_append {earlier later : List SessionCall} (inTurn : InTurn (earlier ++ later)) :
    InTurn earlier := by
  intro front call back split
  refine inTurn front call (back ++ later) ?_
  rw [split, List.append_assoc, List.cons_append]

/-- Calls in turn for a connection get the answers that its live ids give. -/
theorem answer_eq_of_live {calls calls' : List SessionCall} {call : SessionCall}
    (inTurn : InTurn calls) (inTurn' : InTurn calls')
    (same : Live calls call.connId ↔ Live calls' call.connId) :
    bag.answer (bag.after 0 calls) call = bag.answer (bag.after 0 calls') call := by
  cases call with
  | add req => rfl
  | remove req => rfl
  | contains req =>
      have live := (bag_inTurn inTurn).2.2 req.connId
      have live' := (bag_inTurn inTurn').2.2 req.connId
      exact if_congr (live.trans (same.trans live'.symm)) rfl rfl

/-- The answers of each thread are those that it gets alone. -/
theorem answersOf_apart {programs : θ → List SessionCall}
    {log : List (Returned θ SessionCall Int)}
    (apart : Apart programs) (inTurn : ∀ thread, InTurn (programs thread))
    (made : ∀ thread, ∃ rest, programs thread = callsOf thread log ++ rest)
    (answers : log.map (·.answer) = bag.answers 0 (log.map (·.call))) (thread : θ) :
    answersOf thread log = bag.answers 0 (callsOf thread log) := by
  induction log using List.reverseRecOn with
  | nil => rfl
  | append_singleton log returned ih =>
      obtain ⟨before, rest, next⟩ := made_of_concat made
      simp only [List.map_append, List.map_singleton, answers_concat] at answers
      obtain ⟨earlier, last⟩ := List.append_inj' answers rfl
      rw [answersOf_concat, callsOf_concat]
      by_cases same : returned.thread = thread
      · subst same
        have member : returned.call ∈ programs returned.thread := by simp [next]
        have own := own_of_apart apart before member
        have whole := inTurn returned.thread
        rw [next] at whole
        rw [if_pos rfl, if_pos rfl, answers_concat, ih before earlier, (List.cons.inj last).1,
          answer_eq_of_live (inTurn_log apart inTurn before) whole.of_append (live_callsOf own)]
      · rw [if_neg same, if_neg same, List.append_nil, List.append_nil]
        exact ih before earlier

/-- The call that a thread is making comes next in its program. -/
theorem program_fails {programs : θ → List SessionCall}
    {threads : Threads θ SessionCall ℓ Int M2WsSessionsState} {thread : θ} {call : SessionCall}
    {fault : Fault}
    (program : programs thread = callsOf thread threads.log ++
      current (threads.running thread) ++ threads.pending thread)
    (failed : threads.Fails thread call fault) :
    programs thread = callsOf thread threads.log ++ call :: threads.pending thread := by
  obtain ⟨locals, action, rest, busy, -⟩ := failed
  rw [program, busy, List.append_assoc]
  rfl

/-- Threads that keep to connections of their own, each in turn, never fault and
never wait for ever; each of them gets the answers that it would get alone, and the
store has the connections that are live for one of them. -/
theorem apart_calls_undisturbed {procedures : Procedures SessionCall ℓ Int M2WsSessionsState}
    (divides : Divides procedures) {programs : θ → List SessionCall} (apart : Apart programs)
    (inTurn : ∀ thread, InTurn (programs thread))
    {threads : Threads θ SessionCall ℓ Int M2WsSessionsState}
    (reaches : Threads.Reaches procedures
      (.start programs { dict := dictInit, locked := false }) threads) :
    (∀ thread call fault, ¬ threads.Faults thread call fault) ∧
    (threads.Finished ∨ ∃ threads', Threads.Step procedures threads threads') ∧
    (∀ thread, ∃ state, sessionRun (callsOf thread threads.log) =
      .ok (answersOf thread threads.log, state)) ∧
    (threads.shared.locked = false → ∃ ids, Represents threads.shared ids ∧ ids.Nodup ∧
      ∀ id, id ∈ ids ↔ ∃ thread, Live (callsOf thread threads.log) id) := by
  obtain ⟨owner, between, inOrder⟩ :=
    inOrder_of_reaches (guarded_of_divides divides) represents_init.1 reaches
  obtain ⟨-, allowed, answers, after⟩ := bag_of_inOrder divides represents_init inOrder
  have made : ∀ thread, ∃ rest, programs thread = callsOf thread threads.log ++ rest :=
    fun thread => ⟨_, (inOrder.program thread).trans (List.append_assoc _ _ _)⟩
  have logged := inTurn_log apart inTurn made
  obtain ⟨-, nodup, live⟩ := bag_inTurn logged
  have faultless : ∀ thread call fault, ¬ threads.Faults thread call fault := by
    rintro thread call fault ⟨failed, stops⟩
    rcases fails_of_inOrder divides represents_init inOrder failed with
      ⟨-, req, rfl, absent⟩ | ⟨waits, -⟩
    · have turn := turn_of_apart apart made inTurn (program_fails (inOrder.program thread) failed)
      have permitted := (bag_inTurn (inTurn_concat.mpr ⟨logged, turn⟩)).1
      rw [bag.allowedFrom_append] at permitted
      exact absent permitted.2.1
    · exact stops waits
  refine ⟨faultless, ?_, fun thread => ?_, fun free => ?_⟩
  · rcases progress_of_inOrder divides represents_init inOrder with
      finished | step | ⟨thread, call, fault, stopped⟩
    · exact .inl finished
    · exact .inr step
    · exact absurd stopped (faultless thread call fault)
  · obtain ⟨rest, whole⟩ := made thread
    have own := inTurn thread
    rw [whole] at own
    obtain ⟨state, ran, -⟩ := run_of_allowed (bag_inTurn own.of_append).1
    exact ⟨state, by rw [ran, answersOf_apart apart inTurn made answers]⟩
  · rw [inOrder.free (inOrder.owner_none free)]
    refine ⟨_, after, nodup, fun id => (live id).trans ?_⟩
    constructor
    · intro alive
      obtain ⟨earlier, req, later, split, rfl, -⟩ := (show Live _ _ from alive)
      have member : SessionCall.add req ∈ threads.log.map (·.call) := by simp [split]
      obtain ⟨returned, inLog, called⟩ := List.mem_map.mp member
      have own := own_of_apart apart made (mem_program made inLog)
      rw [called] at own
      exact ⟨returned.thread, (live_callsOf own).mp alive⟩
    · rintro ⟨thread, alive⟩
      obtain ⟨earlier, req, later, split, rfl, -⟩ := (show Live _ _ from alive)
      obtain ⟨rest, whole⟩ := made thread
      have listed : SessionCall.add req ∈ programs thread := by simp [whole, split]
      exact (live_callsOf (own_of_apart apart made listed)).mpr alive

def twoThreads : Bool → List SessionCall
  | true => [.add (requestOf 7)]
  | false => [.contains (requestOf 8)]

/-- The first thread has the mutex, and the second one waits for it. -/
theorem reaches_inside :
    ∃ threads, Threads.Reaches sessionProcedures
        (.start twoThreads { dict := dictInit, locked := false }) threads ∧
      threads.Inside sessionProcedures true ∧ threads.Waits false := by
  let started : Threads Bool SessionCall Pointer Int M2WsSessionsState :=
    .start twoThreads { dict := dictInit, locked := false }
  let adds (rest : List (Action Pointer M2WsSessionsState)) : Running SessionCall Pointer _ :=
    ⟨.add (requestOf 7), .null, rest⟩
  let begun : Threads Bool SessionCall Pointer Int M2WsSessionsState := { started with
    running := Function.update started.running true
      (some (adds (sessionProcedures.body (.add (requestOf 7)))))
    pending := Function.update started.pending true [] }
  let inside : Threads Bool SessionCall Pointer Int M2WsSessionsState := { begun with
    shared := { dict := dictInit, locked := true }
    running := Function.update begun.running true
      (some (adds (sessionProcedures.body (.add (requestOf 7))).tail)) }
  let asked : Threads Bool SessionCall Pointer Int M2WsSessionsState := { inside with
    running := Function.update inside.running false
      (some ⟨.contains (requestOf 8), .null, sessionProcedures.body (.contains (requestOf 8))⟩)
    pending := Function.update inside.pending false [] }
  have enters : Threads.Step sessionProcedures started begun := .enter rfl rfl
  have locks : Threads.Step sessionProcedures begun inside := .work rfl (lockAction_free _ _)
  have asks : Threads.Step sessionProcedures inside asked := .enter rfl rfl
  refine ⟨asked, ((Relation.ReflTransGen.single enters).tail locks).tail asks, ?_, ?_⟩
  · exact ⟨_, _, _, rfl, List.cons_ne_nil _ _, Nat.lt_succ_self 2⟩
  · exact ⟨_, _, _, _, rfl, rfl⟩

theorem interleaved_calls_serial_inside :
    ∃ threads, Threads.Reaches sessionProcedures
        (.start twoThreads { dict := dictInit, locked := false }) threads ∧
      threads.Inside sessionProcedures true ∧ threads.Waits false ∧
      ¬ threads.Inside sessionProcedures false ∧ threads.shared.locked = true := by
  obtain ⟨threads, reaches, inside, waits⟩ := reaches_inside
  obtain ⟨alone, taken, -⟩ := interleaved_calls_serial divides_sessionProcedures
    represents_init reaches
  refine ⟨threads, reaches, inside, waits, fun insideOther => ?_, taken.mpr ⟨true, inside⟩⟩
  cases alone true false inside insideOther

theorem apart_twoThreads : Apart twoThreads := by
  have seven : (requestOf 7).connId ≠ (requestOf 8).connId := by decide
  intro thread other call member call' member' same
  cases thread <;> cases other <;> cases List.mem_singleton.mp member <;>
    cases List.mem_singleton.mp member'
  · rfl
  · exact absurd same.symm seven
  · exact absurd same seven
  · rfl

theorem inTurn_twoThreads (thread : Bool) : InTurn (twoThreads thread) := by
  cases thread
  · have turn : Turn [] (.contains (requestOf 8)) := trivial
    exact inTurn_concat.mpr ⟨inTurn_nil, turn⟩
  · have turn : Turn [] (.add (requestOf 7)) := not_live_nil _
    exact inTurn_concat.mpr ⟨inTurn_nil, turn⟩

theorem apart_calls_undisturbed_inside :
    ∃ threads, Threads.Reaches sessionProcedures
        (.start twoThreads { dict := dictInit, locked := false }) threads ∧
      threads.Inside sessionProcedures true ∧ threads.Waits false ∧
      (∀ thread call fault, ¬ threads.Faults thread call fault) ∧
      (threads.Finished ∨ ∃ threads', Threads.Step sessionProcedures threads threads') := by
  obtain ⟨threads, reaches, inside, waits⟩ := reaches_inside
  obtain ⟨faultless, goes, -⟩ := apart_calls_undisturbed divides_sessionProcedures
    apart_twoThreads inTurn_twoThreads reaches
  exact ⟨threads, reaches, inside, waits, faultless, goes⟩

end M2Handler.Websocket.Session

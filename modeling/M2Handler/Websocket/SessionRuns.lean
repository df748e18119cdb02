import M2Handler.Handler.Parsing
import M2Handler.Machine.Refinement
import M2Handler.Websocket.Session

/-!
# Runs over the session store

Every run refines a bag of connection ids.  As long as each call is made in turn,
an `add` for an id that is not live and a `remove` for one that is, the bag is a
set.  Two requests share a session when their connection ids scan to the same
number, whichever server they come from.
-/

namespace M2Handler.Websocket.Session

open Machine Text Bstr Adt Handler

inductive SessionCall where
  | add (req : Mongrel2Request)
  | remove (req : Mongrel2Request)
  | contains (req : Mongrel2Request)

namespace SessionCall

def connId : SessionCall → Int32
  | add req => req.connId
  | remove req => req.connId
  | contains req => req.connId

def run : SessionCall → SessionsM Int
  | add req => mongrel2WsSessionsStateAdd req
  | remove req => mongrel2WsSessionsStateRemove req
  | contains req => mongrel2WsSessionsStateContains req

end SessionCall

def bag : Specification SessionCall (Multiset Int32) Int where
  allowed ids
    | .remove req => req.connId ∈ ids
    | _ => True
  next ids
    | .add req => req.connId ::ₘ ids
    | .remove req => ids.erase req.connId
    | .contains _ => ids
  answer ids
    | .contains req => if req.connId ∈ ids then 1 else 0
    | _ => 0

/-- The store is a bag of connection ids. -/
theorem refines_bag : Refines SessionCall.run bag Represents where
  returns call represents allowed := by
    cases call with
    | add req => exact add_run represents req
    | remove req => exact remove_run represents allowed
    | contains req => exact contains_run represents req
  faults call represents refused := by
    cases call with
    | add req => exact absurd trivial refused
    | remove req => exact ⟨_, remove_faults represents refused⟩
    | contains req => exact absurd trivial refused

def sessionRun (calls : List SessionCall) : Exec (List Int × M2WsSessionsState) := do
  let (_, state) ← mongrel2WsSessionsStateInit
  let (_, state) ← mongrel2WsSessionsStateUnlock state
  runCalls SessionCall.run calls state

/-- A store answers a question for a connection. -/
def Answers (state : M2WsSessionsState) (req : Mongrel2Request) (answer : Int) : Prop :=
  ∃ after, mongrel2WsSessionsStateContains req state = .ok (answer, after)

theorem answers_iff {state : M2WsSessionsState} {ids : Multiset Int32}
    (represents : Represents state ids) (req : Mongrel2Request) (answer : Int) :
    Answers state req answer ↔ answer = if req.connId ∈ ids then 1 else 0 := by
  obtain ⟨after, returned, -⟩ := contains_run represents req
  constructor
  · rintro ⟨other, same⟩
    rw [returned] at same
    cases same
    rfl
  · rintro rfl
    exact ⟨after, returned⟩

theorem answers_one_iff {state : M2WsSessionsState} {ids : Multiset Int32}
    (represents : Represents state ids) (req : Mongrel2Request) :
    Answers state req 1 ↔ req.connId ∈ ids := by
  rw [answers_iff represents]
  by_cases live : req.connId ∈ ids <;> simp [live]

theorem answers_zero_iff {state : M2WsSessionsState} {ids : Multiset Int32}
    (represents : Represents state ids) (req : Mongrel2Request) :
    Answers state req 0 ↔ req.connId ∉ ids := by
  rw [answers_iff represents]
  by_cases live : req.connId ∈ ids <;> simp [live]

/-- The state that a new store is in. -/
theorem exists_started :
    ∃ state, Represents state 0 ∧ ∀ calls, sessionRun calls = runCalls SessionCall.run calls state := by
  obtain ⟨locked, initialised, state, unlocked, represents⟩ := init_run
  refine ⟨state, represents, fun calls => ?_⟩
  rw [sessionRun, initialised, Exec.ok_bind]
  dsimp only
  rw [unlocked, Exec.ok_bind]

/-- A run that returns leaves the bag of its calls. -/
theorem represents_of_run {calls : List SessionCall} {answers : List Int}
    {state : M2WsSessionsState} (reached : sessionRun calls = .ok (answers, state)) :
    bag.AllowedFrom 0 calls ∧ answers = bag.answers 0 calls ∧
      Represents state (bag.after 0 calls) := by
  obtain ⟨started, represents, runs⟩ := exists_started
  rw [runs] at reached
  exact refines_bag.run_inv represents reached

theorem run_of_allowed {calls : List SessionCall} (allowed : bag.AllowedFrom 0 calls) :
    ∃ state, sessionRun calls = .ok (bag.answers 0 calls, state) ∧
      Represents state (bag.after 0 calls) := by
  obtain ⟨started, represents, runs⟩ := exists_started
  rw [runs]
  exact refines_bag.run_returns represents allowed

/-! ## Calls in turn -/

/-- The id was added and not removed since. -/
def Live (calls : List SessionCall) (id : Int32) : Prop :=
  ∃ earlier req later, calls = earlier ++ .add req :: later ∧ req.connId = id ∧
    ∀ other, .remove other ∈ later → other.connId ≠ id

/-- A call may follow these calls: an `add` for an id that is not live, a
`remove` for one that is. -/
def Turn (earlier : List SessionCall) : SessionCall → Prop
  | .add req => ¬ Live earlier req.connId
  | .remove req => Live earlier req.connId
  | .contains _ => True

/-- Every call is made in turn. -/
def InTurn (calls : List SessionCall) : Prop :=
  ∀ earlier call later, calls = earlier ++ call :: later → Turn earlier call

theorem inTurn_concat {calls : List SessionCall} {call : SessionCall} :
    InTurn (calls ++ [call]) ↔ InTurn calls ∧ Turn calls call := by
  constructor
  · intro inTurn
    refine ⟨fun earlier other later split => ?_, inTurn calls call [] rfl⟩
    exact inTurn earlier other (later ++ [call]) (by rw [split]; simp)
  · rintro ⟨inTurn, turn⟩ earlier other later split
    rcases List.eq_nil_or_concat later with rfl | ⟨rest, last, rfl⟩
    · obtain ⟨rfl, same⟩ := List.append_inj' split rfl
      cases same
      exact turn
    · rw [List.concat_eq_append, ← List.cons_append, ← List.append_assoc] at split
      obtain ⟨rfl, -⟩ := List.append_inj' split rfl
      exact inTurn earlier other rest rfl

theorem not_live_nil (id : Int32) : ¬ Live [] id := by
  rintro ⟨earlier, req, later, split, -⟩
  simp at split

theorem inTurn_nil : InTurn [] := by
  intro earlier call later split
  simp at split

/-- The request was added and its id not removed since. -/
def LiveRequest (calls : List SessionCall) (req : Mongrel2Request) : Prop :=
  ∃ earlier later, calls = earlier ++ .add req :: later ∧
    ∀ other, .remove other ∈ later → other.connId ≠ req.connId

theorem live_iff {calls : List SessionCall} {id : Int32} :
    Live calls id ↔ ∃ req, LiveRequest calls req ∧ req.connId = id := by
  constructor
  · rintro ⟨earlier, req, later, split, rfl, unremoved⟩
    exact ⟨req, ⟨earlier, later, split, unremoved⟩, rfl⟩
  · rintro ⟨req, ⟨earlier, later, split, unremoved⟩, rfl⟩
    exact ⟨earlier, req, later, split, rfl, unremoved⟩

/-- What a call does to the live requests. -/
theorem liveRequest_concat {calls : List SessionCall} {call : SessionCall}
    {req : Mongrel2Request} :
    LiveRequest (calls ++ [call]) req ↔
      match call with
      | .add added => added = req ∨ LiveRequest calls req
      | .remove removed => LiveRequest calls req ∧ removed.connId ≠ req.connId
      | .contains _ => LiveRequest calls req := by
  have kept : (∀ other, call = .remove other → other.connId ≠ req.connId) →
      LiveRequest calls req → LiveRequest (calls ++ [call]) req := by
    rintro last ⟨earlier, later, rfl, unremoved⟩
    refine ⟨earlier, later ++ [call], by simp, fun removed member => ?_⟩
    rcases List.mem_append.mp member with inside | final
    · exact unremoved removed inside
    · exact last removed (List.mem_singleton.mp final).symm
  have inverted : LiveRequest (calls ++ [call]) req →
      call = .add req ∨
        LiveRequest calls req ∧ ∀ other, call = .remove other → other.connId ≠ req.connId := by
    rintro ⟨earlier, later, split, unremoved⟩
    rcases List.eq_nil_or_concat later with rfl | ⟨rest, last, rfl⟩
    · obtain ⟨-, ends⟩ := List.append_inj' split rfl
      exact .inl (by simpa using ends)
    · rw [List.concat_eq_append, ← List.cons_append, ← List.append_assoc] at split
      obtain ⟨rfl, ends⟩ := List.append_inj' split rfl
      obtain rfl : call = last := by simpa using ends
      rw [List.concat_eq_append] at unremoved
      refine .inr ⟨⟨earlier, rest, rfl, fun other member => ?_⟩, fun other is => ?_⟩
      · exact unremoved other (List.mem_append_left _ member)
      · exact unremoved other (List.mem_append_right _ (by simp [is]))
  cases call with
  | add added =>
      constructor
      · intro live
        rcases inverted live with same | ⟨before, -⟩
        · cases same
          exact .inl rfl
        · exact .inr before
      · rintro (rfl | before)
        · refine ⟨calls, [], rfl, fun other member => ?_⟩
          exact absurd member List.not_mem_nil
        · refine kept (fun other same => ?_) before
          cases same
  | remove removed =>
      constructor
      · intro live
        rcases inverted live with same | ⟨before, unremoved⟩
        · cases same
        · exact ⟨before, unremoved removed rfl⟩
      · rintro ⟨before, different⟩
        refine kept (fun other same => ?_) before
        cases same
        exact different
  | contains asked =>
      constructor
      · intro live
        rcases inverted live with same | ⟨before, -⟩
        · cases same
        · exact before
      · refine kept (fun other same => ?_)
        cases same

/-- What a call does to the live ids. -/
theorem live_concat {calls : List SessionCall} {call : SessionCall} {id : Int32} :
    Live (calls ++ [call]) id ↔
      match call with
      | .add req => req.connId = id ∨ Live calls id
      | .remove req => Live calls id ∧ req.connId ≠ id
      | .contains _ => Live calls id := by
  simp only [live_iff, liveRequest_concat]
  cases call with
  | add added =>
      constructor
      · rintro ⟨req, rfl | before, same⟩
        · exact .inl same
        · exact .inr ⟨req, before, same⟩
      · rintro (same | ⟨req, before, same⟩)
        · exact ⟨added, .inl rfl, same⟩
        · exact ⟨req, .inr before, same⟩
  | remove removed =>
      constructor
      · rintro ⟨req, ⟨before, different⟩, rfl⟩
        exact ⟨⟨req, before, rfl⟩, different⟩
      · rintro ⟨⟨req, before, rfl⟩, different⟩
        exact ⟨req, ⟨before, different⟩, rfl⟩
  | contains asked => exact Iff.rfl

/-- In turn, the bag is the set of the live ids. -/
theorem bag_inTurn {calls : List SessionCall} (inTurn : InTurn calls) :
    bag.AllowedFrom 0 calls ∧ (bag.after 0 calls).Nodup ∧
      ∀ id, id ∈ bag.after 0 calls ↔ Live calls id := by
  induction calls using List.reverseRecOn with
  | nil =>
      refine ⟨trivial, Multiset.nodup_zero, fun id => ⟨fun member => ?_, fun live => ?_⟩⟩
      · exact absurd member (Multiset.notMem_zero id)
      · exact absurd live (not_live_nil id)
  | append_singleton calls call ih =>
      obtain ⟨before, turn⟩ := inTurn_concat.mp inTurn
      obtain ⟨allowed, nodup, live⟩ := ih before
      rw [bag.allowedFrom_append, bag.after_append]
      cases call with
      | add req =>
          have absent : req.connId ∉ bag.after 0 calls := fun member => turn ((live _).mp member)
          refine ⟨⟨allowed, trivial, trivial⟩, Multiset.nodup_cons.mpr ⟨absent, nodup⟩, fun id => ?_⟩
          rw [live_concat, ← live]
          exact Multiset.mem_cons.trans (or_congr_left eq_comm)
      | remove req =>
          refine ⟨⟨allowed, (live _).mpr turn, trivial⟩, nodup.erase _, fun id => ?_⟩
          rw [live_concat, ← live]
          exact nodup.mem_erase_iff.trans (and_comm.trans (and_congr_right' ne_comm))
      | contains req =>
          refine ⟨⟨allowed, trivial, trivial⟩, nodup, fun id => ?_⟩
          rw [live_concat, ← live]
          exact Iff.rfl

/-! ## A set of connections -/

/-- There are no more connection ids than values of an `int`. -/
theorem card_connIds (ids : Finset Int32) : ids.card < 2 ^ 64 := by
  have within : ∀ id ∈ ids, id.toInt ∈ Finset.Icc (-2147483648) (2147483647 : Int) := by
    intro id _
    rw [Finset.mem_Icc]
    exact ⟨id.le_toInt, Int.le_of_lt_add_one id.toInt_lt⟩
  have injective : Set.InjOn Int32.toInt ids := fun first _ second _ same => Int32.toInt_inj.mp same
  have bounded := Finset.card_le_card_of_injOn Int32.toInt within injective
  rw [Int.card_Icc] at bounded
  exact lt_of_le_of_lt bounded (by decide)

/-- A call leaves the other ids in the bag as they are. -/
theorem mem_next_iff (ids : Multiset Int32) {call : SessionCall} {id : Int32}
    (other : id ≠ call.connId) : id ∈ bag.next ids call ↔ id ∈ ids := by
  cases call with
  | add req => exact Multiset.mem_cons.trans (or_iff_right other)
  | remove req => exact Multiset.mem_erase_of_ne other
  | contains req => exact Iff.rfl

/-- A run in turn ends in a store of the live ids, once each. -/
theorem run_inTurn {calls : List SessionCall} (inTurn : InTurn calls) :
    ∃ state ids, sessionRun calls = .ok (bag.answers 0 calls, state) ∧ Represents state ids ∧
      ids.Nodup ∧ ∀ id, id ∈ ids ↔ Live calls id := by
  obtain ⟨allowed, nodup, live⟩ := bag_inTurn inTurn
  obtain ⟨state, ran, represents⟩ := run_of_allowed allowed
  exact ⟨state, _, ran, represents, nodup, live⟩

/-- A store has as many nodes for an id as its bag has copies of it. -/
theorem countP_inorder {tree : RedBlack.Tree (Nat × M2WsSessionId)} (id : Int32) :
    tree.inorder.countP (fun entry => entry.2.req.connId = id) = (connIds tree).count id := by
  rw [connIds, Multiset.coe_count, List.count, List.countP_map]
  exact List.countP_congr fun entry _ => by simp

/-- In turn, the store is the set of the live connection ids, with one node for
each of them. -/
theorem store_is_set {calls : List SessionCall} (inTurn : InTurn calls) :
    ∃ answers state, ∃ ids : Finset Int32, sessionRun calls = .ok (answers, state) ∧
      (∀ id, id ∈ ids ↔ Live calls id) ∧
      (∀ earlier req later, calls = earlier ++ .contains req :: later →
        ∃ answer, answers[earlier.length]? = some answer ∧
          (answer = 1 ↔ Live earlier req.connId) ∧ (answer = 0 ↔ ¬ Live earlier req.connId)) ∧
      (∀ req, (Answers state req 1 ↔ req.connId ∈ ids) ∧ (Answers state req 0 ↔ req.connId ∉ ids)) ∧
      (dictCount state.dict).toNat = ids.card ∧
      (∃ tree, Holds state.dict tree ∧ ∀ id,
        tree.inorder.countP (fun entry => entry.2.req.connId = id) = if id ∈ ids then 1 else 0) ∧
      ∀ call, Turn calls call → ∃ answer after, call.run state = .ok (answer, after) ∧
        ∀ req reply, req.connId ≠ call.connId →
          (Answers after req reply ↔ Answers state req reply) := by
  obtain ⟨state, ids, ran, represents, nodup, live⟩ := run_inTurn inTurn
  refine ⟨_, state, ⟨ids, nodup⟩, ran, live, ?_, ?_, ?_, ?_, ?_⟩
  · intro earlier req later split
    have before : InTurn earlier := fun first call rest same =>
      inTurn first call (rest ++ .contains req :: later) (by rw [split, same]; simp)
    have liveBefore := (bag_inTurn before).2.2 req.connId
    refine ⟨bag.answer (bag.after 0 earlier) (.contains req), ?_, ?_⟩
    · rw [split]
      exact bag.getElem?_answers 0 earlier (.contains req) later
    · rw [← liveBefore]
      simp [bag]
  · exact fun req => ⟨answers_one_iff represents req, answers_zero_iff represents req⟩
  · obtain ⟨-, tree, stores, rfl⟩ := represents
    have size : tree.inorder.length = Finset.card ⟨connIds tree, nodup⟩ := by
      simp [connIds]
    rw [stores.counted, size]
    exact UInt64.toNat_ofNat_of_lt' (card_connIds _)
  · obtain ⟨-, tree, stores, rfl⟩ := represents
    refine ⟨tree, stores.holds, fun id => ?_⟩
    rw [countP_inorder, Multiset.count_eq_of_nodup nodup]
    rfl
  · intro call turn
    have allowed : bag.allowed ids call := by
      cases call with
      | add req => trivial
      | remove req => exact (live _).mpr turn
      | contains req => trivial
    obtain ⟨after, returned, represents'⟩ := refines_bag.returns call represents allowed
    refine ⟨_, after, returned, fun req reply other => ?_⟩
    simp only [answers_iff represents, answers_iff represents', mem_next_iff ids other]

def requestOf (connId : Int32) : Mongrel2Request := { Mongrel2Request.zero with connId }

/-- Adding the smallest id and asking for the largest. -/
theorem store_is_set_extremes :
    ∃ answers state, ∃ ids : Finset Int32,
      sessionRun [.add (requestOf Int32.minValue), .contains (requestOf Int32.maxValue)] =
        .ok (answers, state) ∧ (dictCount state.dict).toNat = ids.card := by
  have fresh : Turn [] (.add (requestOf Int32.minValue)) := not_live_nil _
  have first : InTurn ([] ++ [.add (requestOf Int32.minValue)]) :=
    inTurn_concat.mpr ⟨inTurn_nil, fresh⟩
  have inTurn : InTurn ([.add (requestOf Int32.minValue)] ++
      [.contains (requestOf Int32.maxValue)]) := inTurn_concat.mpr ⟨first, trivial⟩
  obtain ⟨answers, state, ids, ran, -, -, -, counted, -⟩ := store_is_set inTurn
  exact ⟨answers, state, ids, ran, counted⟩

/-! ## Calls out of turn -/

/-- A removal of an id that is not stored returns and leaves the store as it is. -/
def RemoveIntact (state : M2WsSessionsState) (req : Mongrel2Request) : Prop :=
  ∀ ids, Represents state ids → req.connId ∉ ids →
    ∃ after, mongrel2WsSessionsStateRemove req state = .ok (0, after) ∧ Represents after ids

/-- Adding an id that is stored leaves one node for it. -/
def AddSingle (state : M2WsSessionsState) (req : Mongrel2Request) : Prop :=
  ∀ ids, Represents state ids → req.connId ∈ ids →
    ∃ after ids', mongrel2WsSessionsStateAdd req state = .ok (0, after) ∧ Represents after ids' ∧
      ids'.count req.connId = 1

/-- A removal returns and the id is not stored any more. -/
def RemovedGone (state : M2WsSessionsState) (req : Mongrel2Request) : Prop :=
  ∃ after, mongrel2WsSessionsStateRemove req state = .ok (0, after) ∧ Answers after req 0

section OutOfTurn

variable {state : M2WsSessionsState} {ids : Multiset Int32} (represents : Represents state ids)
  (req : Mongrel2Request)
include represents

theorem removeIntact_iff : RemoveIntact state req ↔ req.connId ∈ ids := by
  constructor
  · intro intact
    by_contra absent
    obtain ⟨after, returned, -⟩ := intact ids represents absent
    rw [remove_faults represents absent] at returned
    cases returned
  · intro live other represents' absent
    rw [represents'.unique represents] at absent
    exact absurd live absent

theorem addSingle_iff : AddSingle state req ↔ req.connId ∉ ids := by
  constructor
  · intro single live
    obtain ⟨after, ids', returned, represents', once⟩ := single ids represents live
    obtain ⟨expected, specified, doubled⟩ := add_run represents req
    rw [specified] at returned
    cases returned
    rw [represents'.unique doubled, Multiset.count_cons_self] at once
    exact absurd live (Multiset.count_eq_zero.mp (Nat.succ.inj once))
  · intro absent other represents' live
    rw [represents'.unique represents] at live
    exact absurd live absent

theorem removedGone_iff : RemovedGone state req ↔ ids.count req.connId = 1 := by
  by_cases live : req.connId ∈ ids
  · obtain ⟨after, returned, erased⟩ := remove_run represents live
    have positive := Multiset.count_pos.mpr live
    have gone : Answers after req 0 ↔ ids.count req.connId = 1 := by
      rw [answers_zero_iff erased, ← Multiset.count_eq_zero, Multiset.count_erase_self]
      omega
    rw [← gone]
    constructor
    · rintro ⟨other, same, answers⟩
      rw [returned] at same
      cases same
      exact answers
    · exact fun answers => ⟨after, returned, answers⟩
  · rw [Multiset.count_eq_zero_of_notMem live]
    constructor
    · rintro ⟨after, returned, -⟩
      rw [remove_faults represents live] at returned
      cases returned
    · exact fun impossible => absurd impossible (by decide)

end OutOfTurn

/-- In every reachable store, calls out of turn do what is asked of them for no
request; runs of calls in turn reach stores with one node for an added id and
none for a removed one. -/
theorem intact_iff_inTurn (calls : List SessionCall) :
    (∀ answers state, sessionRun calls = .ok (answers, state) → ∀ req, ∃ ids,
      Represents state ids ∧ (RemoveIntact state req ↔ req.connId ∈ ids) ∧
        (AddSingle state req ↔ req.connId ∉ ids) ∧
        (RemovedGone state req ↔ ids.count req.connId = 1)) ∧
    (InTurn calls → ∃ answers state ids, sessionRun calls = .ok (answers, state) ∧
      Represents state ids ∧ (∀ id, ids.count id ≤ 1) ∧
      (∀ earlier req, calls = earlier ++ [.add req] → ids.count req.connId = 1) ∧
      ∀ earlier req, calls = earlier ++ [.remove req] → Answers state req 0) := by
  constructor
  · intro answers state reached req
    obtain ⟨-, -, represents⟩ := represents_of_run reached
    exact ⟨_, represents, removeIntact_iff represents req, addSingle_iff represents req,
      removedGone_iff represents req⟩
  · intro inTurn
    obtain ⟨state, ids, ran, represents, nodup, live⟩ := run_inTurn inTurn
    refine ⟨_, state, ids, ran, represents, Multiset.nodup_iff_count_le_one.mp nodup, ?_, ?_⟩
    · rintro earlier req rfl
      exact Multiset.count_eq_one_of_mem nodup ((live _).mpr (live_concat.mpr (.inl rfl)))
    · rintro earlier req rfl
      rw [answers_zero_iff represents, live, live_concat]
      exact fun stays => stays.2 rfl

theorem intact_iff_inTurn_once :
    InTurn [.add (requestOf 7)] ∧
      ∃ answers state ids, sessionRun [.add (requestOf 7)] = .ok (answers, state) ∧
        Represents state ids ∧ ids.count 7 = 1 := by
  have fresh : Turn [] (.add (requestOf 7)) := not_live_nil _
  have inTurn : InTurn ([] ++ [.add (requestOf 7)]) := inTurn_concat.mpr ⟨inTurn_nil, fresh⟩
  obtain ⟨answers, state, ids, ran, represents, -, once, -⟩ :=
    (intact_iff_inTurn [.add (requestOf 7)]).2 inTurn
  exact ⟨inTurn, answers, state, ids, ran, represents, once [] (requestOf 7) rfl⟩

/-- A removal on a new store faults, and one removal does not undo two calls of
`add`. -/
theorem out_of_turn_seven :
    sessionRun [.remove (requestOf 7)] = .error .nullPointer ∧
      (∃ state tree, sessionRun [.add (requestOf 7), .add (requestOf 7)] = .ok ([0, 0], state) ∧
        Holds state.dict tree ∧
        tree.inorder.countP (fun entry => entry.2.req.connId = 7) = 2) ∧
      ∃ state, sessionRun [.add (requestOf 7), .add (requestOf 7), .remove (requestOf 7),
        .contains (requestOf 7)] = .ok ([0, 0, 0, 1], state) := by
  refine ⟨?_, ?_, ?_⟩
  · obtain ⟨started, represents, runs⟩ := exists_started
    rw [runs]
    have faulted := remove_faults represents (Multiset.notMem_zero (requestOf 7).connId)
    change (mongrel2WsSessionsStateRemove (requestOf 7) started >>= _) = _
    rw [faulted]
    rfl
  · have allowed : bag.AllowedFrom 0 [.add (requestOf 7), .add (requestOf 7)] :=
      ⟨trivial, trivial, trivial⟩
    obtain ⟨state, ran, -, tree, stores, ids⟩ := run_of_allowed allowed
    refine ⟨state, tree, ran, stores.holds, ?_⟩
    rw [countP_inorder, ids]
    rfl
  · have live : (requestOf 7).connId ∈ (requestOf 7).connId ::ₘ (requestOf 7).connId ::ₘ 0 :=
      Multiset.mem_cons_self _ _
    have allowed : bag.AllowedFrom 0 [.add (requestOf 7), .add (requestOf 7),
        .remove (requestOf 7), .contains (requestOf 7)] := ⟨trivial, trivial, live, trivial, trivial⟩
    obtain ⟨state, ran, -⟩ := run_of_allowed allowed
    exact ⟨state, ran⟩

/-! ## Connections -/

section Connections

variable {host : Host}

theorem sscanfInt_printInt (host : Host) (number : Int32) :
    sscanfInt host (printInt number.toInt) 0 = number := by
  have int : IsInt number.toInt :=
    ⟨number.le_toInt, Int.le_of_lt_add_one number.toInt_lt⟩
  rw [sscanfInt, cString_eq (printInt_nulFree number.toInt), scanInt_printInt]
  dsimp only
  rw [if_pos int, Int32.ofInt_toInt]

/-- After one request is added, another one shares its session exactly when the
two connection ids scan to the same number. -/
theorem shares_session_iff {headerlen bodylen headerlen' bodylen' : Int32}
    {raw raw' : Option Bstring} {req req' : Mongrel2Request}
    (parsed : mongrel2ParseRequest host headerlen bodylen raw = .ok (some req))
    (parsed' : mongrel2ParseRequest host headerlen' bodylen' raw' = .ok (some req'))
    {calls : List SessionCall} {answers : List Int} {state : M2WsSessionsState}
    (reached : sessionRun calls = .ok (answers, state)) (absent : Answers state req' 0) :
    ∃ after text text', mongrel2WsSessionsStateAdd req state = .ok (0, after) ∧
      bdata req.connIdBstr = some text ∧ bdata req'.connIdBstr = some text' ∧
      (Answers after req' 1 ↔ sscanfInt host text 0 = sscanfInt host text' 0) ∧
      ∀ number number' : Int32, text = printInt number.toInt → text' = printInt number'.toInt →
        (Answers after req' 1 ↔ text = text') := by
  obtain ⟨-, -, represents⟩ := represents_of_run reached
  obtain ⟨text, textEq, connId⟩ := parse_connId host parsed
  obtain ⟨text', textEq', connId'⟩ := parse_connId host parsed'
  obtain ⟨after, added, representsAfter⟩ := add_run represents req
  have notLive := (answers_zero_iff represents req').mp absent
  have shares : Answers after req' 1 ↔ sscanfInt host text 0 = sscanfInt host text' 0 := by
    rw [answers_one_iff representsAfter, Multiset.mem_cons, or_iff_left notLive, connId, connId']
    exact eq_comm
  refine ⟨after, text, text', added, textEq, textEq', shares, ?_⟩
  rintro number number' rfl rfl
  rw [shares, sscanfInt_printInt, sscanfInt_printInt]
  constructor
  · rintro rfl
    rfl
  · intro same
    rw [← sscanfInt_printInt host number, same, sscanfInt_printInt]

def rawFrom (uuid connId : Bytes)
    (fits : (documented uuid connId [47] [123, 125] [98]).length ≤ 2147483647) : Bstring :=
  ⟨17, documented uuid connId [47] [123, 125] [98], fits⟩

theorem parse_rawFrom (uuid connId : Bytes) (uuidAbsent : Absent 32 uuid)
    (connIdAbsent : Absent 32 connId)
    (fits : (documented uuid connId [47] [123, 125] [98]).length ≤ 2147483647) :
    ∃ req, mongrel2ParseRequest linuxHost 0 0 (some (rawFrom uuid connId fits)) = .ok (some req) ∧
      bdata req.uuid = some uuid ∧ bdata req.connIdBstr = some connId ∧
      req.connId = sscanfInt linuxHost connId 0 := by
  have bytes : (rawFrom uuid connId fits).data = documented uuid connId [47] [123, 125] [98] := rfl
  obtain ⟨req, accepted, described⟩ := describes_documented linuxHost 0 0 uuidAbsent connIdAbsent
    (by decide) bytes
  exact ⟨req, accepted, described.uuid, described.connIdBstr, described.connId⟩

/-- The first connection of two servers, whose ids are `7` and `8`. -/
theorem shares_session_iff_seven :
    ∃ req req', mongrel2ParseRequest linuxHost 0 0 (some (rawFrom [117] [55] (by decide))) =
        .ok (some req) ∧
      mongrel2ParseRequest linuxHost 0 0 (some (rawFrom [118] [56] (by decide))) =
        .ok (some req') ∧
      ∃ state after text text', sessionRun [] = .ok ([], state) ∧
        mongrel2WsSessionsStateAdd req state = .ok (0, after) ∧
        (Answers after req' 1 ↔ sscanfInt linuxHost text 0 = sscanfInt linuxHost text' 0) := by
  obtain ⟨req, parsed, -⟩ := parse_rawFrom [117] [55] (by decide) (by decide) (by decide)
  obtain ⟨req', parsed', -⟩ := parse_rawFrom [118] [56] (by decide) (by decide) (by decide)
  have empty : bag.AllowedFrom 0 [] := trivial
  obtain ⟨state, ran, represents⟩ := run_of_allowed empty
  have absent := (answers_zero_iff represents req').mpr (Multiset.notMem_zero _)
  obtain ⟨after, text, text', added, -, -, shares, -⟩ := shares_session_iff parsed parsed' ran absent
  exact ⟨req, req', parsed, parsed', state, after, text, text', ran, added, shares⟩

/-- Connection `7` of one server is taken for connection `7` of another, and for
connection `07`. -/
theorem shares_session_across_servers :
    ∃ req other padded state,
      mongrel2ParseRequest linuxHost 0 0 (some (rawFrom [117] [55] (by decide))) =
        .ok (some req) ∧
      mongrel2ParseRequest linuxHost 0 0 (some (rawFrom [118] [55] (by decide))) =
        .ok (some other) ∧
      mongrel2ParseRequest linuxHost 0 0 (some (rawFrom [117] [48, 55] (by decide))) =
        .ok (some padded) ∧
      bdata req.uuid ≠ bdata other.uuid ∧ bdata req.connIdBstr ≠ bdata padded.connIdBstr ∧
      sessionRun [.contains other, .contains padded, .add req, .contains other,
        .contains padded] = .ok ([0, 0, 0, 1, 1], state) := by
  obtain ⟨req, parsed, uuid, text, connId⟩ := parse_rawFrom [117] [55] (by decide) (by decide) (by decide)
  obtain ⟨other, parsedOther, uuidOther, -, connIdOther⟩ :=
    parse_rawFrom [118] [55] (by decide) (by decide) (by decide)
  obtain ⟨padded, parsedPadded, -, textPadded, connIdPadded⟩ :=
    parse_rawFrom [117] [48, 55] (by decide) (by decide) (by decide)
  have seven : sscanfInt linuxHost [55] 0 = 7 := by decide
  have paddedSeven : sscanfInt linuxHost [48, 55] 0 = 7 := by decide
  have allowed : bag.AllowedFrom 0 [.contains other, .contains padded, .add req, .contains other,
      .contains padded] := ⟨trivial, trivial, trivial, trivial, trivial, trivial⟩
  obtain ⟨state, ran, -⟩ := run_of_allowed allowed
  refine ⟨req, other, padded, state, parsed, parsedOther, parsedPadded, ?_, ?_, ?_⟩
  · rw [uuid, uuidOther]
    decide
  · rw [text, textPadded]
    decide
  · rw [ran]
    simp [Specification.answers, bag, connId, connIdOther, connIdPadded, seven, paddedSeven]

end Connections

end M2Handler.Websocket.Session

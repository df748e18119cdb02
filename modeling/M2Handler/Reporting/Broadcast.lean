import M2Handler.Websocket.Assertions
import M2Handler.Websocket.Broadcast

/-!
# Reported broadcasts

A broadcast makes one WebSocket reply to each session, on a socket that the
earlier ones have changed, and returns `0` after the last one.
-/

namespace M2Handler.Reporting

open Machine Text Bstr Handler Websocket Delivery

def AllSent (payload : Bytes) :
    List Mongrel2Request → Option Mongrel2Socket → Option Mongrel2Socket → Prop
  | [], before, after => after = before
  | req :: rest, before, after =>
      ∃ between, Sent req payload before between ∧ AllSent payload rest between after

def handed (socket : Option Mongrel2Socket) : List (Bytes × Bool) :=
  (socket.map Mongrel2Socket.calls).getD []

theorem handed_push (socket : Mongrel2Socket) (message : Bytes) :
    handed (some (socket.push message)) = handed (some socket) ++ [(message, socket.next)] :=
  rfl

theorem allSent_handed {payload : Bytes} {sessions : List Mongrel2Request}
    {before after : Option Mongrel2Socket} (all : AllSent payload sessions before after) :
    ∃ messages, messages.length = sessions.length ∧ handed after = handed before ++ messages := by
  induction sessions generalizing before with
  | nil =>
      cases all
      exact ⟨[], rfl, (List.append_nil _).symm⟩
  | cons req rest ih =>
      obtain ⟨between, ⟨s, uuid, connId, rfl, -, -, -, rfl⟩, others⟩ := all
      obtain ⟨messages, length, same⟩ := ih others
      refine ⟨[(envelope uuid connId ++ payload, s.next)] ++ messages, ?_, ?_⟩
      · rw [List.length_append, List.length_singleton, List.length_cons, length, Nat.add_comm]
      · rw [same, handed_push, List.append_assoc]

section Sessions

variable (host : Host) (data : Option Bstring)

/-- One of the replies of the broadcast stops. -/
def BroadcastStops (socket : Option Mongrel2Socket) (sessions : List Mongrel2Request) : Prop :=
  hasMemory host (dataBytes data) = true ∧ ∃ r ∈ sessions, Stops host (dataBytes data) socket r

/-- Each message of the broadcast can be delivered where its turn is. -/
def AllDeliverable (socket : Option Mongrel2Socket) (sessions : List Mongrel2Request) : Prop :=
  ∀ i r, sessions[i]? = some r → FrameDeliverable host (dataBytes data) i socket r

theorem stops_congr {bytes : Bytes} {socket after : Option Mongrel2Socket}
    (same : after = none ↔ socket = none) (r : Mongrel2Request) :
    Stops host bytes after r ↔ Stops host bytes socket r := by
  simp only [Stops, same]

variable {socket : Option Mongrel2Socket}

theorem sessionReply_ends {r : Mongrel2Request} (memory : hasMemory host (dataBytes data) = true)
    (stops : Stops host (dataBytes data) socket r) :
    ∃ fault, Session.sessionReply host data socket r = .error fault ∧
      (fault = .assertion ↔ Asserts host (dataBytes data)) := by
  obtain ⟨fault, stopped, asserted⟩ := wsReply_ends host data memory stops
  refine ⟨fault, ?_, asserted⟩
  rw [Session.sessionReply, stopped]
  rfl

/-- A reply of the broadcast hands over one message or none. -/
theorem sessionReply_goes (r : Mongrel2Request)
    (goes : hasMemory host (dataBytes data) = true → ¬ Stops host (dataBytes data) socket r) :
    ∃ after, Session.sessionReply host data socket r = .ok after ∧
      (after = socket ∨ ∃ s message, socket = some s ∧ after = some (s.push message)) ∧
      (Sent r (textBytes host (dataBytes data)) socket after ↔
        FrameDeliverable host (dataBytes data) 0 socket r) := by
  have shape {code : Int} {after : Option Mongrel2Socket}
      (returned : mongrel2WsReply host socket (some r) data = .ok (code, after)) :
      after = socket ∨ ∃ s message, socket = some s ∧ after = some (s.push message) := by
    obtain unchanged | ⟨s, uuid, socketEq, -, pushed⟩ := wsReply_inv host returned
    · exact .inl unchanged
    · exact .inr ⟨s, _, socketEq, pushed⟩
  by_cases memory : hasMemory host (dataBytes data) = true
  · obtain ⟨after, returned, sent_iff⟩ := wsReply_sent_iff host data memory (goes memory)
    have passed : passesDebug host (dataBytes data) := not_not.mp fun unprinted =>
      goes memory (.inl unprinted)
    refine ⟨after, ?_, shape returned, sent_iff.trans ⟨fun deliverable => ⟨memory, passed,
      deliverable⟩, fun deliverable => deliverable.2.2⟩⟩
    rw [Session.sessionReply, returned]
    rfl
  · have returned := wsReply_no_memory host socket (some r) (Bool.eq_false_iff.mpr memory)
    refine ⟨socket, ?_, .inl rfl, fun sent => absurd sent not_sent_unchanged, ?_⟩
    · rw [Session.sessionReply, returned]
      rfl
    · exact fun both => absurd both.1 memory

theorem broadcast_ends {sessions : List Mongrel2Request}
    (stops : BroadcastStops host data socket sessions) :
    ∃ fault, sessions.foldlM (Session.sessionReply host data) socket = .error fault ∧
      (fault = .assertion ↔ Asserts host (dataBytes data)) := by
  obtain ⟨memory, r, member, stops⟩ := stops
  induction sessions generalizing socket with
  | nil => cases member
  | cons first rest ih =>
      rw [List.foldlM_cons]
      by_cases begins : Stops host (dataBytes data) socket first
      · obtain ⟨fault, stopped, asserted⟩ := sessionReply_ends host data memory begins
        rw [stopped]
        exact ⟨fault, rfl, asserted⟩
      · obtain ⟨after, returned, shape, -⟩ := sessionReply_goes host data first fun _ => begins
        have same : after = none ↔ socket = none := by
          obtain rfl | ⟨s, message, rfl, rfl⟩ := shape
          · exact Iff.rfl
          · exact iff_of_false (Option.some_ne_none _) (Option.some_ne_none _)
        have later : r ∈ rest := by
          obtain rfl | later := List.mem_cons.mp member
          · exact absurd stops begins
          · exact later
        rw [returned, Exec.ok_bind]
        exact ih later ((stops_congr host same r).mpr stops)

theorem deliverableAfter_push {s : Mongrel2Socket} {message : Bytes} {r : Mongrel2Request}
    {i length : Nat} :
    DeliverableAfter i (some (s.push message)) r length ↔
      DeliverableAfter (i + 1) (some s) r length := by
  have place : (s.push message).calls.length + i = s.calls.length + (i + 1) := by
    rw [Mongrel2Socket.push, List.length_append, List.length_singleton]
    omega
  constructor
  · rintro ⟨t, uuid, connId, same, accepted, canonical, fits⟩
    cases same
    rw [place] at accepted
    exact ⟨s, uuid, connId, rfl, accepted, canonical, fits⟩
  · rintro ⟨t, uuid, connId, same, accepted, canonical, fits⟩
    cases same
    refine ⟨_, uuid, connId, rfl, ?_, canonical, fits⟩
    rw [place]
    exact accepted

/-- The first message is deliverable now, and the others behind it. -/
theorem allDeliverable_cons {s : Mongrel2Socket} {message : Bytes} {first : Mongrel2Request}
    {rest : List Mongrel2Request} :
    AllDeliverable host data (some s) (first :: rest) ↔
      FrameDeliverable host (dataBytes data) 0 (some s) first ∧
        AllDeliverable host data (some (s.push message)) rest := by
  constructor
  · intro all
    refine ⟨all 0 first rfl, fun i r found => ?_⟩
    obtain ⟨memory, passed, deliverable⟩ :=
      all (i + 1) r (by rw [List.getElem?_cons_succ]; exact found)
    exact ⟨memory, passed, deliverableAfter_push.mpr deliverable⟩
  · rintro ⟨now, later⟩ i r found
    cases i with
    | zero =>
        cases found
        exact now
    | succ i =>
        obtain ⟨memory, passed, deliverable⟩ :=
          later i r (by rw [List.getElem?_cons_succ] at found; exact found)
        exact ⟨memory, passed, deliverableAfter_push.mp deliverable⟩

/-- The first reply to the sessions is the one that was made. -/
theorem allSent_cons {payload : Bytes} {first : Mongrel2Request} {rest : List Mongrel2Request}
    {between after : Option Mongrel2Socket} {messages : List (Bytes × Bool)}
    (shape : between = socket ∨ ∃ s message, socket = some s ∧ between = some (s.push message))
    (few : messages.length ≤ rest.length) (given : handed after = handed between ++ messages) :
    AllSent payload (first :: rest) socket after ↔
      Sent first payload socket between ∧ AllSent payload rest between after := by
  refine ⟨?_, fun both => ⟨between, both⟩⟩
  rintro ⟨other, ⟨s, uuid, connId, rfl, sent⟩, others⟩
  obtain ⟨next, uuidText, connIdText, rfl⟩ := sent
  obtain ⟨later, length, givenLater⟩ := allSent_handed others
  rw [given, handed_push, List.append_assoc] at givenLater
  obtain rfl | ⟨t, message, same, rfl⟩ := shape
  · have counts := congrArg List.length (List.append_cancel_left givenLater)
    rw [List.length_append, List.length_singleton] at counts
    omega
  · cases same
    rw [handed_push, List.append_assoc] at givenLater
    have heads := List.append_cancel_left givenLater
    rw [List.singleton_append, List.singleton_append, List.cons.injEq, Prod.mk.injEq] at heads
    obtain ⟨⟨rfl, -⟩, -⟩ := heads
    exact ⟨⟨s, uuid, connId, rfl, next, uuidText, connIdText, rfl⟩, others⟩

/-- A broadcast that does not stop has sent all its messages exactly when each
could be delivered. -/
theorem broadcast_sent_iff {sessions : List Mongrel2Request}
    (goes : ¬ BroadcastStops host data socket sessions) :
    ∃ after messages, sessions.foldlM (Session.sessionReply host data) socket = .ok after ∧
      messages.length ≤ sessions.length ∧ handed after = handed socket ++ messages ∧
      (AllSent (textBytes host (dataBytes data)) sessions socket after ↔
        AllDeliverable host data socket sessions) := by
  induction sessions generalizing socket with
  | nil =>
      refine ⟨socket, [], rfl, le_rfl, (List.append_nil _).symm, fun _ i r found => ?_, fun _ => rfl⟩
      rw [List.getElem?_nil] at found
      cases found
  | cons first rest ih =>
      have goesFirst (memory : hasMemory host (dataBytes data) = true)
          (stops : Stops host (dataBytes data) socket first) : False :=
        goes ⟨memory, first, List.mem_cons_self, stops⟩
      obtain ⟨between, returned, shape, sent_iff⟩ := sessionReply_goes host data first goesFirst
      have same : between = none ↔ socket = none := by
        obtain rfl | ⟨s, message, rfl, rfl⟩ := shape
        · exact Iff.rfl
        · exact iff_of_false (Option.some_ne_none _) (Option.some_ne_none _)
      have goesRest : ¬ BroadcastStops host data between rest := by
        rintro ⟨memory, r, member, stops⟩
        exact goes ⟨memory, r, List.mem_cons_of_mem _ member, (stops_congr host same r).mp stops⟩
      obtain ⟨after, messages, ran, few, given, all_iff⟩ := ih goesRest
      have folded : (first :: rest).foldlM (Session.sessionReply host data) socket = .ok after := by
        rw [List.foldlM_cons, returned, Exec.ok_bind, ran]
      have whole : AllSent (textBytes host (dataBytes data)) (first :: rest) socket after ↔
          AllDeliverable host data socket (first :: rest) := by
        rw [allSent_cons shape few given, sent_iff, all_iff]
        obtain rfl | ⟨s, message, rfl, rfl⟩ := shape
        · -- Nothing was handed over, so the first message could not be delivered.
          have unsent : ¬ FrameDeliverable host (dataBytes data) 0 between first :=
            fun deliverable => not_sent_unchanged (sent_iff.mpr deliverable)
          exact ⟨fun both => absurd both.1 unsent, fun all => absurd (all 0 first rfl) unsent⟩
        · exact (allDeliverable_cons host data).symm
      obtain rfl | ⟨s, message, rfl, rfl⟩ := shape
      · exact ⟨after, messages, folded, Nat.le_succ_of_le few, given, whole⟩
      · refine ⟨after, [(message, s.next)] ++ messages, folded, ?_, ?_, whole⟩
        · rw [List.length_append, List.length_singleton, List.length_cons]
          omega
        · rw [given, handed_push, List.append_assoc]

end Sessions

/-- A broadcast that returns `0` has sent the frame to every session. -/
def BroadcastHonest (run : Exec ((Int × Option Mongrel2Socket) × Session.M2WsSessionsState))
    (sessions : List Mongrel2Request) (payload : Bytes) (before : Option Mongrel2Socket) : Prop :=
  Reports run fun result => result.1.1 = 0 → AllSent payload sessions before result.1.2

/-- The replies of a broadcast, and the broadcast that makes them. -/
theorem broadcast_follows {host : Host} {data : Option Bstring} {state : Session.M2WsSessionsState}
    {tree : RedBlack.Tree (Nat × Session.M2WsSessionId)} (free : state.locked = false)
    (stores : Session.Stores state.dict tree) (socket : Option Mongrel2Socket) :
    (∃ fault, (Session.requests tree).foldlM (Session.sessionReply host data) socket =
        .error fault ∧ Session.mongrel2WsBroadcast host socket data state = .error fault) ∨
      ∃ after last, (Session.requests tree).foldlM (Session.sessionReply host data) socket =
          .ok after ∧ Session.mongrel2WsBroadcast host socket data state = .ok ((0, after), last) ∧
        last.locked = false ∧ Session.Stores last.dict tree := by
  obtain ⟨dict, locked⟩ := state
  cases free
  have follows := Session.broadcast_run host stores data socket
  rw [Session.sessionReplies] at follows
  cases replied : (Session.requests tree).foldlM (Session.sessionReply host data) socket with
  | error fault =>
      rw [replied] at follows
      obtain ⟨other, same, stopped⟩ | ⟨result, last, impossible, -⟩ := follows
      · cases same
        exact .inl ⟨fault, rfl, stopped⟩
      · cases impossible
  | ok after =>
      rw [replied] at follows
      obtain ⟨fault, impossible, -⟩ | ⟨result, last, same, returned, kept⟩ := follows
      · cases impossible
      · cases same
        exact .inr ⟨after, last, rfl, returned, kept⟩

theorem broadcast_honest_iff (host : Host) (socket : Option Mongrel2Socket)
    (data : Option Bstring) {state : Session.M2WsSessionsState}
    {tree : RedBlack.Tree (Nat × Session.M2WsSessionId)} (free : state.locked = false)
    (stores : Session.Stores state.dict tree) :
    BroadcastHonest (Session.mongrel2WsBroadcast host socket data state) (Session.requests tree)
        (textBytes host (dataBytes data)) socket ↔
      (hasMemory host (dataBytes data) = true ∧ Asserts host (dataBytes data)) ∨
        AllDeliverable host data socket (Session.requests tree) := by
  by_cases stops : BroadcastStops host data socket (Session.requests tree)
  · obtain ⟨fault, ended, asserted⟩ := broadcast_ends host data stops
    obtain ⟨other, same, stopped⟩ | ⟨after, last, impossible, -⟩ :=
      broadcast_follows free stores socket
    · cases ended.symm.trans same
      obtain ⟨memory, r, member, begins⟩ := stops
      have undelivered : ¬ AllDeliverable host data socket (Session.requests tree) := by
        intro all
        obtain ⟨i, found⟩ := List.getElem?_of_mem member
        exact not_stops_of_deliverable (all i r found) begins
      rw [stopped, BroadcastHonest, reports_error, asserted, or_iff_left undelivered,
        and_iff_right memory]
    · rw [ended] at impossible
      cases impossible
  · obtain ⟨after, messages, ran, -, -, all_iff⟩ := broadcast_sent_iff host data stops
    obtain ⟨fault, impossible, -⟩ | ⟨other, last, same, returned, -⟩ :=
      broadcast_follows free stores socket
    · rw [ran] at impossible
      cases impossible
    · cases ran.symm.trans same
      rw [returned, BroadcastHonest, reports_ok, all_iff]
      constructor
      · exact fun honest => .inr (honest rfl)
      · rintro (⟨memory, asserts⟩ | all) -
        · -- A failed assertion would have stopped the first reply.
          intro i r found
          exact absurd ⟨memory, r, List.mem_of_getElem? found, stops_of_asserts asserts⟩ stops
        · exact all

/-! ## All sessions of a run -/

/-- The broadcast returns behind the replies to all sessions, in a free store of the same tree. -/
def Completes (host : Host) (data : Option Bstring)
    (tree : RedBlack.Tree (Nat × Session.M2WsSessionId)) (socket : Option Mongrel2Socket)
    (state : Session.M2WsSessionsState) : Prop :=
  ∃ after last, (Session.requests tree).foldlM (Session.sessionReply host data) socket =
      .ok after ∧ Session.mongrel2WsBroadcast host socket data state = .ok ((0, after), last) ∧
    last.locked = false ∧ Session.Stores last.dict tree

theorem completes_iff {host : Host} {data : Option Bstring} {state : Session.M2WsSessionsState}
    {tree : RedBlack.Tree (Nat × Session.M2WsSessionId)} (free : state.locked = false)
    (stores : Session.Stores state.dict tree) (socket : Option Mongrel2Socket) :
    Completes host data tree socket state ↔
      ¬ BroadcastStops host data socket (Session.requests tree) := by
  constructor
  · rintro ⟨after, last, ran, -⟩ stops
    obtain ⟨fault, ended, -⟩ := broadcast_ends host data stops
    rw [ran] at ended
    cases ended
  · intro goes
    obtain ⟨after, messages, ran, -⟩ := broadcast_sent_iff host data goes
    obtain ⟨fault, impossible, -⟩ | ⟨other, last, same, returned, kept⟩ :=
      broadcast_follows free stores socket
    · rw [ran] at impossible
      cases impossible
    · exact ⟨other, last, same, returned, kept⟩

/-- After calls in turn a broadcast calls `mongrel2_ws_reply` once for each live session, in
ascending order of the connection ids, until one of these calls stops.  If none does, it returns
with the mutex free and the sessions as they are. -/
theorem broadcast_completes_iff (host : Host) {calls : List Session.SessionCall}
    (inTurn : Session.InTurn calls) :
    ∃ answers state tree, Session.sessionRun calls = .ok (answers, state) ∧
      Session.Stores state.dict tree ∧
      (∀ req, req ∈ Session.requests tree ↔ Session.LiveRequest calls req) ∧
      (Session.requests tree).Pairwise (fun req other => req.connId < other.connId) ∧
      (∀ (σ : Type) (reply : σ → Mongrel2Request → Exec σ) (begin : σ),
        Session.Follows tree (Session.eachSession reply begin state)
          ((Session.requests tree).foldlM reply begin)) ∧
      ∀ socket data,
        (Completes host data tree socket state ↔
          ¬ BroadcastStops host data socket (Session.requests tree)) ∧
        ∀ fault, Session.mongrel2WsBroadcast host socket data state = .error fault →
          fault.Halts := by
  obtain ⟨answers, ⟨dict, locked⟩, ran, rfl, tree, stores, enrols⟩ := Session.run_records inTurn
  have nodup : (Session.connIds tree).Nodup := by
    rw [enrols.ids]
    exact (Session.bag_inTurn inTurn).2.1
  refine ⟨answers, _, tree, ran, stores, enrols.live, Session.requests_ascend stores nodup,
    fun σ reply begin => Session.eachSession_run reply stores begin, fun socket data =>
      ⟨completes_iff rfl stores socket, fun fault stopped => ?_⟩⟩
  rcases Session.broadcast_run host stores data socket with
    ⟨other, replies, same⟩ | ⟨result, after, -, returned, -⟩
  · rw [stopped] at same
    cases same
    exact Session.sessionReplies_halts host replies
  · rw [stopped] at returned
    cases returned

def greeting : Bstring := ⟨8, [104, 105], by decide⟩

def rawEight : Bstring :=
  ⟨16, documented [117] (decimal 8) [47] [123, 125] [98], by decide⟩

/-- Two parsed requests of different connections. -/
theorem exists_twoSessions :
    ∃ first second, mongrel2ParseRequest linuxHost 0 0 (some rawSeven) = .ok (some first) ∧
      mongrel2ParseRequest linuxHost 0 0 (some rawEight) = .ok (some second) ∧
      Canonical first [117] (decimal 7) ∧ Canonical second [117] (decimal 8) ∧
      Session.InTurn [.add first, .add second] ∧
      ∀ req, Session.LiveRequest [.add first, .add second] req ↔ req = first ∨ req = second := by
  have bytes : rawEight.data = documented [117] (decimal 8) [47] [123, 125] [98] := rfl
  obtain ⟨first, parsedFirst⟩ := parse_rawSeven
  obtain ⟨second, parsedSecond, -⟩ := describes_documented linuxHost 0 0 (by decide) (by decide)
    (by decide) bytes
  have canonicalFirst := canonical_of_parsed (by decide) (by decide) (by decide) (by decide)
    bytes_rawSeven parsedFirst
  have canonicalSecond := canonical_of_parsed (by decide) (by decide) (by decide) (by decide)
    bytes parsedSecond
  have different : second.connId ≠ first.connId := by
    intro same
    have printed := canonicalSecond.connIdPrinted
    rw [same, ← canonicalFirst.connIdPrinted] at printed
    exact absurd printed (by decide)
  have live (req : Mongrel2Request) :
      Session.LiveRequest ([.add first] ++ [.add second]) req ↔ req = first ∨ req = second := by
    rw [Session.liveRequest_concat]
    change second = req ∨ Session.LiveRequest ([] ++ [.add first]) req ↔ _
    rw [Session.liveRequest_concat]
    change second = req ∨ first = req ∨ Session.LiveRequest [] req ↔ _
    have nothing : ¬ Session.LiveRequest [] req := by
      rintro ⟨earlier, later, split, -⟩
      simp at split
    constructor
    · rintro (rfl | rfl | impossible)
      · exact .inr rfl
      · exact .inl rfl
      · exact absurd impossible nothing
    · rintro (rfl | rfl)
      · exact .inr (.inl rfl)
      · exact .inl rfl
  have begun : Session.InTurn ([] ++ [.add first]) :=
    Session.inTurn_concat.mpr ⟨Session.inTurn_nil, Session.not_live_nil _⟩
  have fresh : Session.Turn [.add first] (.add second) := by
    rintro ⟨earlier, req, later, split, same, -⟩
    obtain ⟨rfl, rest⟩ : earlier = [] ∧ first = req := by
      cases earlier with
      | nil => exact ⟨rfl, by simpa using (List.cons.inj split).1⟩
      | cons call earlier => simp at split
    rw [← rest] at same
    exact different same.symm
  exact ⟨first, second, parsedFirst, parsedSecond, canonicalFirst, canonicalSecond,
    Session.inTurn_concat.mpr ⟨begun, fresh⟩, live⟩

/-- A greeting fits behind the envelope of each of them. -/
theorem deliverable_twoSessions {first second : Mongrel2Request}
    (canonicalFirst : Canonical first [117] (decimal 7))
    (canonicalSecond : Canonical second [117] (decimal 8)) {req : Mongrel2Request}
    (either : req = first ∨ req = second) (more : Nat) :
    FrameDeliverable linuxHost (dataBytes (some greeting)) more (some openSocket) req := by
  have frame : (textBytes linuxHost (dataBytes (some greeting))).length = 4 := by
    rw [length_textBytes]
    rfl
  have size (digit : Bytes) (one : digit.length = 1) : (envelope [117] digit).length = 7 := by
    rw [length_envelope, one]
    rfl
  obtain rfl | rfl := either
  · refine ⟨rfl, .inl rfl, openSocket, _, _, rfl, rfl, canonicalFirst, ?_⟩
    rw [responseHead_canonical canonicalFirst, size _ (by decide), frame]
    exact ⟨by decide, by decide⟩
  · refine ⟨rfl, .inl rfl, openSocket, _, _, rfl, rfl, canonicalSecond, ?_⟩
    rw [responseHead_canonical canonicalSecond, size _ (by decide), frame]
    exact ⟨by decide, by decide⟩

/-- A greeting to two parsed requests. -/
theorem broadcast_completes_iff_two :
    ∃ first second answers state tree,
      mongrel2ParseRequest linuxHost 0 0 (some rawSeven) = .ok (some first) ∧
      mongrel2ParseRequest linuxHost 0 0 (some rawEight) = .ok (some second) ∧
      Session.sessionRun [.add first, .add second] = .ok (answers, state) ∧
      first ∈ Session.requests tree ∧ second ∈ Session.requests tree ∧
      Completes linuxHost (some greeting) tree (some openSocket) state := by
  obtain ⟨first, second, parsedFirst, parsedSecond, canonicalFirst, canonicalSecond, inTurn,
    live_iff⟩ := exists_twoSessions
  obtain ⟨answers, state, tree, ran, -, live, -, -, completes⟩ :=
    broadcast_completes_iff linuxHost inTurn
  have only {req : Mongrel2Request} : req ∈ Session.requests tree ↔ req = first ∨ req = second :=
    (live req).trans (live_iff req)
  refine ⟨first, second, answers, state, tree, parsedFirst, parsedSecond, ran,
    only.mpr (.inl rfl), only.mpr (.inr rfl), ?_⟩
  refine (completes (some openSocket) (some greeting)).1.mpr ?_
  rintro ⟨-, req, member, stops⟩
  exact not_stops_of_deliverable
    (deliverable_twoSessions canonicalFirst canonicalSecond (only.mp member) 0) stops

/-- A message of `INT_MAX` bytes in the default build, and an empty one without `NDEBUG`. -/
theorem broadcast_stops_seven :
    ∃ answers state, Session.sessionRun [.add requestSeven] = .ok (answers, state) ∧
      (∃ data fault, Session.mongrel2WsBroadcast linuxHost (some openSocket) (some data) state =
        .error fault) ∧
      ∃ fault, Session.mongrel2WsBroadcast debugHost (some openSocket) (some ⟨8, [], by decide⟩)
        state = .error fault := by
  have inTurn : Session.InTurn ([] ++ [.add requestSeven]) :=
    Session.inTurn_concat.mpr ⟨Session.inTurn_nil, Session.not_live_nil _⟩
  obtain ⟨answers, state, ran, free, tree, stores, enrols⟩ := Session.run_records inTurn
  have member : requestSeven ∈ Session.requests tree := by
    rw [enrols.live, Session.liveRequest_concat]
    exact .inl rfl
  have stopped {host : Host} {data : Bstring} (memory : hasMemory host data.data = true)
      (stops : Stops host data.data (some openSocket) requestSeven) :
      ∃ fault, Session.mongrel2WsBroadcast host (some openSocket) (some data) state =
        .error fault := by
    have all : BroadcastStops host (some data) (some openSocket) (Session.requests tree) :=
      ⟨memory, requestSeven, member, stops⟩
    obtain ⟨fault, ended, -⟩ := broadcast_ends host (some data) all
    obtain ⟨other, -, stopped⟩ | ⟨after, last, impossible, -⟩ :=
      broadcast_follows free stores (some openSocket)
    · exact ⟨other, stopped⟩
    · rw [ended] at impossible
      cases impossible
  refine ⟨answers, state, ran, ?_, ?_⟩
  · have count : (List.replicate 2147483630 (0 : UInt8)).length = 2147483630 :=
      List.length_replicate
    refine ⟨⟨-1, List.replicate 2147483630 0, by rw [count]; decide⟩, stopped rfl ?_⟩
    have head : responseHead requestSeven [117] = envelope [117] [55] :=
      responseHead_canonical canonical_requestSeven
    refine .inr (.inr (.inr (.inr ⟨[117], uuid_requestSeven, ?_, .inl ?_⟩)))
    · rw [head]
      decide
    · rw [head, length_textBytes, count]
      decide
  · exact stopped rfl (.inl (by
      rintro (impossible | ⟨nonempty, -⟩)
      · cases impossible
      · exact nonempty rfl))

end M2Handler.Reporting

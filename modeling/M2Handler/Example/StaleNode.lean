import M2Handler.Example.Connections
import M2Handler.Example.WsHandshakeC

/-!
# The node that a notice deletes

In `ws_handshake.c` a notice deletes the session of the connection whose message
came just before it, not that of the connection that is gone.  A ledger of the
connections with a session accounts for every run: it says which messages the
program gets through and which sessions are left.
-/

namespace M2Handler.Example.WsHandshakeC

open Machine Text Bstr RedBlack Adt Handler Websocket Websocket.Framing Websocket.Session
  WsHandshake

/-! ## The ledger -/

inductive Message
  | request (id : Int32) (close : Bool)
  | notice
deriving DecidableEq

/-- The connections with a session, and what `tempnode` points to. -/
structure Ledger where
  known : Finset Int32
  aim : Aim
deriving DecidableEq

namespace Ledger

def start : Ledger := ⟨∅, .null⟩

/-- A message that is not accounted for stops the program. -/
def step (ledger : Ledger) : Message → Option Ledger
  | .request id close =>
      if id ∈ ledger.known then
        if close then some ⟨ledger.known.erase id, .freed⟩
        else some ⟨ledger.known, .session id⟩
      else some ⟨insert id ledger.known, .null⟩
  | .notice =>
      match ledger.aim with
      | .session id => some ⟨ledger.known.erase id, .freed⟩
      | _ => none

def run (messages : List Message) : Option Ledger := messages.foldlM step start

theorem run_concat {messages : List Message} {message : Message} {ledger : Ledger} :
    run (messages ++ [message]) = some ledger ↔
      ∃ between, run messages = some between ∧ between.step message = some ledger := by
  rw [run, List.foldlM_append]
  simp [run, Option.bind_eq_some_iff]

/-- Only a request of a connection with a session leaves the pointer aimed. -/
theorem step_session {ledger ledger' : Ledger} {message : Message} {id : Int32}
    (stepped : ledger.step message = some ledger') (aimed : ledger'.aim = .session id) :
    message = .request id false ∧ id ∈ ledger.known ∧ ledger'.known = ledger.known := by
  cases message with
  | request other close =>
      rw [step] at stepped
      split at stepped
      · rename_i known
        cases close with
        | true =>
            cases stepped
            cases aimed
        | false =>
            cases stepped
            cases aimed
            exact ⟨rfl, known, rfl⟩
      · cases stepped
        cases aimed
  | notice =>
      rw [step] at stepped
      split at stepped
      · cases stepped
        cases aimed
      · cases stepped

/-- The message in front of a notice. -/
theorem run_session {messages : List Message} {ledger : Ledger} {id : Int32}
    (ran : run messages = some ledger) (aimed : ledger.aim = .session id) :
    ∃ before between, messages = before ++ [.request id false] ∧ run before = some between ∧
      id ∈ between.known ∧ ledger.known = between.known := by
  rcases List.eq_nil_or_concat messages with rfl | ⟨before, message, rfl⟩
  · cases ran
    cases aimed
  · rw [List.concat_eq_append] at ran ⊢
    obtain ⟨between, ranBefore, stepped⟩ := run_concat.mp ran
    obtain ⟨rfl, known, same⟩ := step_session stepped aimed
    exact ⟨before, between, rfl, ranBefore, known, same⟩

end Ledger

/-! ## The tracker and the ledger -/

def closing (request : Mongrel2Request) : Bool :=
  match bdata request.body with
  | some (byte :: _) => byte &&& 0x0F = opClose
  | _ => false

def Reads (host : Host) (libraries : Libraries) (arrival : Arrival) (message : Message) : Prop :=
  ∃ request, mongrel2Recv host arrival = .ok (some request) ∧
    (mongrel2RequestForDisconnect libraries (some request) = .ok 1 ∧ message = .notice ∨
      mongrel2RequestForDisconnect libraries (some request) ≠ .ok 1 ∧
        message = .request request.connId (closing request))

section Accounts

variable {host : Host} {libraries : Libraries}

theorem Reads.unique {arrival : Arrival} {message message' : Message}
    (reads : Reads host libraries arrival message)
    (reads' : Reads host libraries arrival message') : message = message' := by
  obtain ⟨request, came, read⟩ := reads
  obtain ⟨other, came', read'⟩ := reads'
  rw [came] at came'
  cases came'
  rcases read with ⟨notice, rfl⟩ | ⟨asked, rfl⟩
  · rcases read' with ⟨-, rfl⟩ | ⟨asked, -⟩
    · rfl
    · exact absurd notice asked
  · rcases read' with ⟨notice, -⟩ | ⟨-, rfl⟩
    · exact absurd notice asked
    · rfl

/-- The messages of a run are determined by its arrivals. -/
theorem reads_unique {arrivals : List Arrival} {messages messages' : List Message}
    (reads : List.Forall₂ (Reads host libraries) arrivals messages)
    (reads' : List.Forall₂ (Reads host libraries) arrivals messages') :
    messages = messages' := by
  induction reads generalizing messages' with
  | nil =>
      cases reads'
      rfl
  | cons read _ ih =>
      cases reads' with
      | cons read' others => rw [read.unique read', ih others]

/-- The last message is that of the last arrival. -/
theorem reads_last {arrivals : List Arrival} {messages : List Message} {message : Message}
    (reads : List.Forall₂ (Reads host libraries) arrivals (messages ++ [message])) :
    ∃ earlier arrival, arrivals = earlier ++ [arrival] ∧
      List.Forall₂ (Reads host libraries) earlier messages ∧
      Reads host libraries arrival message := by
  have front := List.forall₂_take_append arrivals messages [message] reads
  have back := List.forall₂_drop_append arrivals messages [message] reads
  obtain ⟨arrival, others, read, rest, last⟩ := List.forall₂_cons_right_iff.mp back
  cases rest
  refine ⟨_, arrival, ?_, front, read⟩
  rw [← last, List.take_append_drop]

/-- The ledger has the connections of the tracker. -/
structure Books (tracker : Tracker) (ledger : Ledger) : Prop where
  known : ∀ id, tracker.Knows id ↔ id ∈ ledger.known
  aim : tracker.aim = ledger.aim

variable {tracker tracker' : Tracker} {ledger : Ledger} {request : Mongrel2Request}

theorem books_enter (books : Books tracker ledger) (unknown : ¬ tracker.Knows request.connId)
    (pubSocket : Option Mongrel2Socket) (headers : Option Json) :
    Books { pubSocket, live := Hub.enter { request with headers } tracker.live, aim := .null }
      ⟨insert request.connId ledger.known, .null⟩ := by
  refine ⟨fun id => ?_, rfl⟩
  rw [Hub.knows_enter, Finset.mem_insert, ← books.known]
  constructor
  · rintro (rfl | ⟨other, member, rfl, -⟩)
    · exact .inl rfl
    · exact .inr ⟨other, member, rfl⟩
  · rintro (rfl | ⟨other, member, rfl⟩)
    · exact .inl rfl
    · exact .inr ⟨other, member, rfl, fun same => unknown ⟨other, member, same⟩⟩

theorem books_leave (books : Books tracker ledger) (pubSocket : Option Mongrel2Socket)
    (id : Int32) :
    Books { pubSocket, live := Hub.leave id tracker.live, aim := .freed }
      ⟨ledger.known.erase id, .freed⟩ := by
  refine ⟨fun other => ?_, rfl⟩
  rw [Finset.mem_erase, ← books.known, and_comm]
  exact Hub.knows_leave rfl

/-! ## Turns -/

/-- The opcode of a body that is not empty. -/
theorem getOpcode_closing (nonempty : 0 < blength request.body) :
    ∃ frame opcode, bdata request.body = some frame ∧
      mongrel2WsFrameGetOpcode host (blength request.body).toNat frame = .ok opcode ∧
      (opcode = opClose ↔ closing request = true) := by
  cases held : request.body with
  | none =>
      rw [held] at nonempty
      exact absurd nonempty (lt_irrefl 0)
  | some body =>
      rw [held] at nonempty
      obtain ⟨mlen, bytes, fits⟩ := body
      cases bytes with
      | nil => exact absurd nonempty (lt_irrefl 0)
      | cons byte rest =>
          have positive : 0 < (blength (some ⟨mlen, byte :: rest, fits⟩)).toNat :=
            Int.pos_iff_toNat_pos.mp nonempty
          refine ⟨byte :: rest, byte &&& 0x0F, rfl, ?_, ?_⟩
          · rw [mongrel2WsFrameGetOpcode, decide_eq_true positive, cassert_true, Exec.ok_bind]
            rfl
          · rw [closing, held]
            exact decide_eq_true_iff.symm

theorem closing_empty (empty : ¬ 0 < blength request.body) : closing request = false := by
  cases held : request.body with
  | none => rw [closing, held]; rfl
  | some body =>
      obtain ⟨mlen, bytes, fits⟩ := body
      cases bytes with
      | nil => rw [closing, held]; rfl
      | cons byte rest =>
          rw [held] at empty
          exact absurd (Int.natCast_pos.mpr (Nat.succ_pos rest.length)) empty

/-- A request of a connection with a session, in the ledger. -/
theorem attend_books (books : Books tracker ledger) (known : tracker.Knows request.connId)
    (attended : tracker.attend host request = .ok tracker') :
    ∃ ledger', ledger.step (.request request.connId (closing request)) = some ledger' ∧
      Books tracker' ledger' := by
  rw [Ledger.step, if_pos ((books.known _).mp known)]
  rw [Tracker.attend] at attended
  split at attended
  · rename_i nonempty
    obtain ⟨frame, opcode, held, read, close⟩ := getOpcode_closing nonempty
    rw [held, deref_some, Exec.ok_bind, read, Exec.ok_bind] at attended
    by_cases closed : opcode = opClose
    · rw [if_pos closed] at attended
      obtain ⟨⟨code, pubSocket⟩, -, same⟩ := Exec.bind_eq_ok.mp attended
      cases same
      rw [if_pos (close.mp closed)]
      exact ⟨_, rfl, books_leave books pubSocket request.connId⟩
    · rw [if_neg closed] at attended
      cases attended
      rw [if_neg (mt close.mpr closed)]
      exact ⟨_, rfl, books.known, rfl⟩
  · rename_i empty
    obtain ⟨⟨code, pubSocket⟩, -, same⟩ := Exec.bind_eq_ok.mp attended
    cases same
    rw [closing_empty empty, if_neg (by decide)]
    exact ⟨_, rfl, books.known, rfl⟩

/-- A request of a connection without a session, in the ledger. -/
theorem welcome_books (books : Books tracker ledger) (unknown : ¬ tracker.Knows request.connId)
    (welcomed : tracker.welcome host libraries request = .ok tracker') :
    ∃ ledger', ledger.step (.request request.connId (closing request)) = some ledger' ∧
      Books tracker' ledger' := by
  rw [Ledger.step, if_neg (mt (books.known _).mpr unknown)]
  refine ⟨_, rfl, ?_⟩
  obtain ⟨⟨code, pubSocket, final⟩, upgraded, welcomed⟩ := Exec.bind_eq_ok.mp welcomed
  obtain ⟨headers, rfl⟩ := upgrade_request upgraded
  dsimp only at welcomed
  split at welcomed
  · cases welcomed
    exact books_enter books unknown pubSocket headers
  · obtain ⟨⟨status, after⟩, -, same⟩ := Exec.bind_eq_ok.mp welcomed
    cases same
    exact books_enter books unknown after headers

/-- A turn that returns is accounted for. -/
theorem turn_books (books : Books tracker ledger) {arrival : Arrival}
    (turned : tracker.turn host libraries arrival = .ok tracker') :
    ∃ message ledger', Reads host libraries arrival message ∧
      ledger.step message = some ledger' ∧ Books tracker' ledger' := by
  rw [Tracker.turn] at turned
  obtain ⟨received, came, turned⟩ := Exec.bind_eq_ok.mp turned
  obtain ⟨asking, answered, turned⟩ := Exec.bind_eq_ok.mp turned
  cases received with
  | none =>
      cases answered
      cases turned
  | some request =>
      rw [asks, if_neg (by simp)] at answered
      obtain ⟨answer, noticed, same⟩ := Exec.bind_eq_ok.mp answered
      cases same
      by_cases notice : answer = 1
      · rw [if_neg (by simp [notice]), Tracker.drop, deref_some, Exec.ok_bind] at turned
        refine ⟨.notice, ?_⟩
        have read : Reads host libraries arrival .notice :=
          ⟨request, came, .inl ⟨notice ▸ noticed, rfl⟩⟩
        rw [Ledger.step, ← books.aim]
        cases aim : tracker.aim with
        | null =>
            rw [aim] at turned
            cases turned
        | freed =>
            rw [aim] at turned
            cases turned
        | session id =>
            rw [aim] at turned
            obtain ⟨⟨code, pubSocket⟩, -, same⟩ := Exec.bind_eq_ok.mp turned
            cases same
            exact ⟨_, read, rfl, books_leave books pubSocket id⟩
      · rw [if_pos (decide_eq_true notice), deref_some, Exec.ok_bind, Tracker.serve] at turned
        have read : Reads host libraries arrival (.request request.connId (closing request)) := by
          refine ⟨request, came, .inr ⟨fun same => notice ?_, rfl⟩⟩
          rw [noticed] at same
          exact Except.ok.inj same
        split at turned
        · rename_i known
          obtain ⟨ledger', stepped, books'⟩ := attend_books books known turned
          exact ⟨_, ledger', read, stepped, books'⟩
        · rename_i unknown
          obtain ⟨ledger', stepped, books'⟩ := welcome_books books unknown turned
          exact ⟨_, ledger', read, stepped, books'⟩

/-- A run that returns is accounted for. -/
theorem run_books {pubSocket : Option Mongrel2Socket} {arrivals : List Arrival}
    (ran : Tracker.run host libraries pubSocket arrivals = .ok tracker) :
    ∃ messages ledger, List.Forall₂ (Reads host libraries) arrivals messages ∧
      Ledger.run messages = some ledger ∧ Books tracker ledger := by
  induction arrivals using List.reverseRecOn generalizing tracker with
  | nil =>
      cases ran
      refine ⟨[], .start, .nil, rfl, fun id => ?_, rfl⟩
      constructor
      · rintro ⟨request, member, -⟩
        exact absurd member List.not_mem_nil
      · exact fun member => absurd member (Finset.notMem_empty id)
  | append_singleton arrivals arrival ih =>
      obtain ⟨before, ranBefore, turned⟩ := foldlM_concat_ok.mp ran
      obtain ⟨messages, between, reads, accounted, books⟩ := ih ranBefore
      obtain ⟨message, ledger, read, stepped, books'⟩ := turn_books books turned
      exact ⟨messages ++ [message], ledger, List.rel_append reads (.cons read .nil),
        Ledger.run_concat.mpr ⟨between, accounted, stepped⟩, books'⟩

/-! ## Turns that return -/

variable {uuid : Bytes}

/-- Without the printout the greeting goes out. -/
theorem hello_returns (ndebug : host.ndebug = true) {pubSocket : Option Mongrel2Socket}
    (isOpen : pubSocket.isSome) (uuidText : bdata request.uuid = some uuid) :
    ∃ code after, mongrel2WsReply host pubSocket (some request) (some HELLO) =
      .ok (code, after) ∧ after.isSome := by
  have few : HELLO.data.length < 300 := by decide +kernel
  obtain ⟨after, replied, isOpen'⟩ := sessionReply_returns ndebug isOpen uuidText few
  obtain ⟨⟨code, socket⟩, sent, same⟩ := Exec.bind_eq_ok.mp replied
  cases same
  exact ⟨code, after, sent, isOpen'⟩

theorem attend_returns (ndebug : host.ndebug = true) (isOpen : tracker.pubSocket.isSome)
    (uuidText : bdata request.uuid = some uuid) :
    ∃ tracker', tracker.attend host request = .ok tracker' ∧ tracker'.pubSocket.isSome := by
  rw [Tracker.attend]
  split
  · rename_i nonempty
    obtain ⟨frame, opcode, held, read, -⟩ := @getOpcode_closing host request nonempty
    rw [held, deref_some, Exec.ok_bind, read, Exec.ok_bind]
    split
    · obtain ⟨code, after, closed⟩ := disconnect_returns isOpen uuidText
      rw [closed]
      exact ⟨_, rfl, open_of_disconnect isOpen closed⟩
    · exact ⟨_, rfl, isOpen⟩
  · obtain ⟨code, after, sent, isOpen'⟩ := hello_returns ndebug isOpen uuidText
    rw [sent]
    exact ⟨_, rfl, isOpen'⟩

theorem welcome_returns (ndebug : host.ndebug = true) (isOpen : tracker.pubSocket.isSome)
    (uuidText : bdata request.uuid = some uuid)
    (short : ∀ key, keyOf libraries request = some key → key.length < 2147483647) :
    ∃ tracker', tracker.welcome host libraries request = .ok tracker' ∧
      tracker'.pubSocket.isSome := by
  obtain ⟨code, after, final, upgraded, isOpen'⟩ := upgrade_returns isOpen uuidText short
  obtain ⟨headers, rfl⟩ := upgrade_request upgraded
  rw [Tracker.welcome, upgraded, Exec.ok_bind]
  dsimp only
  split
  · exact ⟨_, rfl, isOpen'⟩
  · have named : bdata ({ request with headers } : Mongrel2Request).uuid = some uuid := uuidText
    obtain ⟨status, socket, sent, stillOpen⟩ := hello_returns ndebug isOpen' named
    rw [sent]
    exact ⟨_, rfl, stillOpen⟩

variable {language : JsonLanguage}

/-- A message that is accounted for does not stop the loop. -/
theorem turn_returns (ndebug : host.ndebug = true) (precise : Precise libraries language)
    (isOpen : tracker.pubSocket.isSome) (books : Books tracker ledger) {arrival : Arrival}
    {message : Message} {ledger' : Ledger} (reads : Reads host libraries arrival message)
    (stepped : ledger.step message = some ledger') :
    ∃ tracker', tracker.turn host libraries arrival = .ok tracker' ∧
      tracker'.pubSocket.isSome := by
  obtain ⟨request, came, read⟩ := reads
  obtain ⟨uuid, body, uuidText, -, keys, answer, answered⟩ := Hub.recv_served precise came
  rw [Tracker.turn, came, Exec.ok_bind, asks, if_neg (by simp), answered, Exec.ok_bind,
    Exec.pure_eq_ok, Exec.ok_bind]
  rcases read with ⟨notice, rfl⟩ | ⟨asked, rfl⟩
  · rw [answered] at notice
    rw [if_neg (by simp [Except.ok.inj notice]), Tracker.drop, deref_some, Exec.ok_bind]
    rw [Ledger.step, ← books.aim] at stepped
    cases aim : tracker.aim with
    | null =>
        rw [aim] at stepped
        cases stepped
    | freed =>
        rw [aim] at stepped
        cases stepped
    | session id =>
        obtain ⟨code, after, closed⟩ := disconnect_returns isOpen uuidText
        dsimp only
        rw [closed]
        exact ⟨_, rfl, open_of_disconnect isOpen closed⟩
  · rw [answered] at asked
    have other : answer ≠ 1 := fun one => asked (congrArg Except.ok one)
    rw [if_pos (decide_eq_true other), deref_some, Exec.ok_bind, Tracker.serve]
    split
    · exact attend_returns ndebug isOpen uuidText
    · exact welcome_returns ndebug isOpen uuidText keys

/-- A run that is accounted for returns. -/
theorem run_returns (ndebug : host.ndebug = true) (precise : Precise libraries language)
    (socket : Mongrel2Socket) {arrivals : List Arrival} {messages : List Message}
    (reads : List.Forall₂ (Reads host libraries) arrivals messages)
    (accounted : Ledger.run messages = some ledger) :
    ∃ tracker, Tracker.run host libraries (some socket) arrivals = .ok tracker ∧
      tracker.pubSocket.isSome := by
  induction messages using List.reverseRecOn generalizing arrivals ledger with
  | nil =>
      cases reads
      exact ⟨_, rfl, rfl⟩
  | append_singleton messages message ih =>
      obtain ⟨between, accountedBefore, stepped⟩ := Ledger.run_concat.mp accounted
      obtain ⟨earlier, arrival, rfl, readsBefore, read⟩ := reads_last reads
      obtain ⟨tracker, ran, isOpen⟩ := ih readsBefore accountedBefore
      obtain ⟨messages', between', readsBefore', accounted', books⟩ := run_books ran
      cases reads_unique readsBefore readsBefore'
      rw [accountedBefore] at accounted'
      cases accounted'
      obtain ⟨tracker', turned, isOpen'⟩ :=
        turn_returns ndebug precise isOpen books read stepped
      exact ⟨tracker', foldlM_concat_ok.mpr ⟨tracker, ran, turned⟩, isOpen'⟩

theorem turn_notice {arrival : Arrival} (read : Reads host libraries arrival .notice) :
    ∃ request, tracker.turn host libraries arrival = tracker.drop (some request) := by
  obtain ⟨request, came, ⟨notice, -⟩ | ⟨-, impossible⟩⟩ := read
  · refine ⟨request, ?_⟩
    rw [Tracker.turn, came, Exec.ok_bind, asks, if_neg (by simp), notice, Exec.ok_bind,
      Exec.pure_bind, if_neg (by simp)]
  · cases impossible

/-- A notice with nothing to delete stops the loop at what the pointer is. -/
theorem run_stops (ndebug : host.ndebug = true) (precise : Precise libraries language)
    (socket : Mongrel2Socket) {earlier : List Arrival} {messages : List Message}
    (reads : List.Forall₂ (Reads host libraries) earlier messages)
    (accounted : Ledger.run messages = some ledger) {arrival : Arrival}
    (read : Reads host libraries arrival .notice) (later : List Arrival) {fault : Fault}
    (stops : ∀ (tracker : Tracker) (request : Mongrel2Request), tracker.aim = ledger.aim →
      tracker.drop (some request) = .error fault) :
    Tracker.run host libraries (some socket) (earlier ++ arrival :: later) = .error fault := by
  obtain ⟨tracker, ran, -⟩ := run_returns ndebug precise socket reads accounted
  obtain ⟨messages', ledger', reads', accounted', books⟩ := run_books ran
  cases reads_unique reads reads'
  rw [accounted] at accounted'
  cases accounted'
  obtain ⟨request, turned⟩ := @turn_notice _ _ tracker arrival read
  rw [Tracker.run, List.foldlM_append, ← Tracker.run, ran, Exec.ok_bind, List.foldlM_cons, turned,
    stops tracker request books.aim]
  rfl

/-! ## Runs -/

/-- Without the printout, the program gets through exactly the messages that the
ledger accounts for.  At a notice it stops at what `tempnode` is instead of a session. -/
theorem goes_on_iff (ndebug : host.ndebug = true) (precise : Precise libraries language)
    (socket : Mongrel2Socket) (arrivals : List Arrival) :
    ((∃ main, wsHandshake host libraries (some socket) arrivals = .ok main) ↔
      ∃ messages ledger, List.Forall₂ (Reads host libraries) arrivals messages ∧
        Ledger.run messages = some ledger) ∧
    ∀ earlier arrival later messages ledger, arrivals = earlier ++ arrival :: later →
      List.Forall₂ (Reads host libraries) earlier messages →
      Ledger.run messages = some ledger → Reads host libraries arrival .notice →
        (ledger.aim = .null →
          wsHandshake host libraries (some socket) arrivals = .error .nullPointer) ∧
        (ledger.aim = .freed →
          wsHandshake host libraries (some socket) arrivals = .error .outOfBounds) := by
  have tracked := run_tracked host libraries (some socket) arrivals
  constructor
  · rw [tracked.returns_iff]
    constructor
    · rintro ⟨tracker, ran⟩
      obtain ⟨messages, ledger, reads, accounted, -⟩ := run_books ran
      exact ⟨messages, ledger, reads, accounted⟩
    · rintro ⟨messages, ledger, reads, accounted⟩
      obtain ⟨tracker, ran, -⟩ := run_returns ndebug precise socket reads accounted
      exact ⟨tracker, ran⟩
  · rintro earlier arrival later messages ledger rfl reads accounted read
    have stops := @run_stops _ _ _ _ ndebug precise socket _ _ reads accounted _ read later
    refine ⟨fun null => tracked.stops (stops fun tracker request same => ?_),
      fun freed => tracked.stops (stops fun tracker request same => ?_)⟩
    · rw [Tracker.drop, deref_some, Exec.ok_bind, same, null]
    · rw [Tracker.drop, deref_some, Exec.ok_bind, same, freed]

/-- The dictionary holds one session for each of these connections. -/
def Holding (main : Main) (ids : Finset Int32) : Prop :=
  ∃ tree, Stores main.dict tree ∧ connIds tree = ids.val

theorem holding_books {main : Main} (tracks : Tracks main tracker) (books : Books tracker ledger) :
    Holding main ledger.known := by
  obtain ⟨-, ascending, tree, stores, listed, -⟩ := tracks
  refine ⟨tree, stores, ?_⟩
  have nodup := nodup_connIds listed ascending
  refine (Multiset.Nodup.ext nodup ledger.known.nodup).mpr fun id => ?_
  rw [← knows_iff listed]
  exact books.known id

/-- A notice deletes the session of the connection whose message came just before
it. -/
theorem notice_deletes_previous {pubSocket : Option Mongrel2Socket}
    {earlier later : List Arrival} {arrival : Arrival} {main : Main}
    (ran : wsHandshake host libraries pubSocket (earlier ++ arrival :: later) = .ok main)
    {id : Int32} (notice : Notifies host libraries arrival id) :
    ∃ before previous other ids first second third, earlier = before ++ [previous] ∧
      Asks host libraries previous other ∧ other ∈ ids ∧
      wsHandshake host libraries pubSocket before = .ok first ∧ Holding first ids ∧
      wsHandshake host libraries pubSocket earlier = .ok second ∧ Holding second ids ∧
      wsHandshake host libraries pubSocket (earlier ++ [arrival]) = .ok third ∧
      Holding third (ids.erase other) := by
  obtain ⟨last, modelled, -⟩ := (run_tracked host libraries pubSocket _).returned ran
  rw [List.append_cons] at modelled
  obtain ⟨tracker₃, ran₃, -⟩ := foldlM_append_ok.mp modelled
  obtain ⟨tracker₂, ran₂, turned⟩ := foldlM_concat_ok.mp ran₃
  obtain ⟨messages, ledger, reads, accounted, books₂⟩ := run_books ran₂
  obtain ⟨message, after, read, stepped, books₃⟩ := turn_books books₂ turned
  obtain ⟨request, came, -, noticed⟩ := notice
  cases read.unique ⟨request, came, .inl ⟨noticed, rfl⟩⟩
  -- The ledger says whose node the notice deletes.
  obtain ⟨other, aimed⟩ : ∃ other, ledger.aim = .session other := by
    rw [Ledger.step] at stepped
    split at stepped
    · rename_i other aimed
      exact ⟨other, aimed⟩
    · cases stepped
  rw [Ledger.step, aimed] at stepped
  cases stepped
  obtain ⟨asked, between, rfl, accountedBefore, known, same⟩ := Ledger.run_session accounted aimed
  obtain ⟨before, previous, rfl, readsBefore, readPrevious⟩ := reads_last reads
  obtain ⟨tracker₁, ran₁, -⟩ := foldlM_concat_ok.mp ran₂
  obtain ⟨messages', ledger', reads', accounted', books₁⟩ := run_books ran₁
  cases reads_unique readsBefore reads'
  rw [accountedBefore] at accounted'
  cases accounted'
  obtain ⟨first, started, tracks₁⟩ := (run_tracked host libraries pubSocket _).returns ran₁
  obtain ⟨second, went, tracks₂⟩ := (run_tracked host libraries pubSocket _).returns ran₂
  obtain ⟨third, ended, tracks₃⟩ := (run_tracked host libraries pubSocket _).returns ran₃
  have held := holding_books tracks₂ books₂
  have left := holding_books tracks₃ books₃
  rw [same] at held left
  refine ⟨before, previous, other, between.known, first, second, third, rfl, ?_, known, started,
    holding_books tracks₁ books₁, went, held, ended, left⟩
  obtain ⟨asking, came', ⟨-, impossible⟩ | ⟨silent, same⟩⟩ := readPrevious
  · cases impossible
  · obtain ⟨sameId, -⟩ := Message.request.inj same
    exact ⟨asking, came', sameId.symm, silent⟩

end Accounts

/-! ## Connection 7 -/

def arrivalsSeven : List Arrival := [arrivalSeven [], arrivalSeven [], arrivalSeven noticeText]

theorem reads_arrivalSeven : Reads linuxHost noticeLibraries (arrivalSeven []) (.request 7 false) := by
  obtain ⟨request, came, connId, held⟩ := recv_arrivalSeven [] (by decide)
  obtain ⟨other, came', -, asked⟩ := asks_arrivalSeven
  rw [came] at came'
  cases came'
  refine ⟨request, came, .inr ⟨asked, ?_⟩⟩
  rw [connId, closing, held]

theorem reads_arrivalsSeven :
    List.Forall₂ (Reads linuxHost noticeLibraries) arrivalsSeven
      [.request 7 false, .request 7 false, .notice] := by
  obtain ⟨request, came, -, noticed⟩ := notifies_arrivalSeven
  exact .cons reads_arrivalSeven (.cons reads_arrivalSeven
    (.cons ⟨request, came, .inl ⟨noticed, rfl⟩⟩ .nil))

theorem ledger_arrivalsSeven :
    Ledger.run [.request 7 false, .request 7 false, .notice] = some ⟨∅, .freed⟩ := by
  decide

/-- A notice behind these messages finds its node freed. -/
theorem goes_on_seven :
    (∃ main, wsHandshake linuxHost noticeLibraries (some openSocket) arrivalsSeven = .ok main) ∧
    wsHandshake linuxHost noticeLibraries (some openSocket)
      (arrivalsSeven ++ [arrivalSeven noticeText]) = .error .outOfBounds := by
  obtain ⟨request, came, -, noticed⟩ := notifies_arrivalSeven
  have read : Reads linuxHost noticeLibraries (arrivalSeven noticeText) .notice :=
    ⟨request, came, .inl ⟨noticed, rfl⟩⟩
  have stops := (goes_on_iff rfl precise_notice openSocket
    (arrivalsSeven ++ [arrivalSeven noticeText])).2 arrivalsSeven (arrivalSeven noticeText) []
    _ _ rfl reads_arrivalsSeven ledger_arrivalsSeven read
  exact ⟨(goes_on_iff rfl precise_notice openSocket arrivalsSeven).1.mpr
    ⟨_, _, reads_arrivalsSeven, ledger_arrivalsSeven⟩, stops.2 rfl⟩

/-- The second request leaves the pointer at the node that the notice deletes. -/
theorem notice_deletes_previous_seven :
    ∃ first ids, wsHandshake linuxHost noticeLibraries (some openSocket) [arrivalSeven []] =
        .ok first ∧ Holding first ids ∧
      ∃ third, wsHandshake linuxHost noticeLibraries (some openSocket) arrivalsSeven =
        .ok third ∧ ∃ other ∈ ids, Holding third (ids.erase other) := by
  obtain ⟨tracker, modelled, -⟩ :=
    run_returns rfl precise_notice openSocket reads_arrivalsSeven ledger_arrivalsSeven
  obtain ⟨main, ran, -⟩ := (run_tracked _ _ _ _).returns modelled
  obtain ⟨before, previous, other, ids, first, second, third, split, -, known, started, held, -, -,
    ended, left⟩ :=
    @notice_deletes_previous _ _ _ [arrivalSeven [], arrivalSeven []] [] (arrivalSeven noticeText)
      main ran 7 notifies_arrivalSeven
  have place : [arrivalSeven []] ++ [arrivalSeven []] = before ++ [previous] := split
  obtain ⟨front, -⟩ := List.append_inj' place rfl
  cases front
  exact ⟨first, ids, started, held, third, ended, other, known, left⟩

end M2Handler.Example.WsHandshakeC

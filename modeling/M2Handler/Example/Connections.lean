import M2Handler.Example.WsHandshake

/-!
# Connections of the handler

In every run of `ws_handshake.cpp` the connections that are served are those that
asked and gave no notice since, and the messages of a turn are known, with their
envelopes, their payloads and their order.  The loop stops at the first message that it cannot
parse and at a notice of a connection that it does not serve, and nowhere else.
-/

namespace M2Handler.Example.WsHandshake

open Machine Text Bstr Adt Handler Websocket Websocket.Framing Websocket.Session

variable (host : Host) (libraries : Libraries)

/-! ## Requests and notices -/

/-- The message is a request of this connection. -/
def Asks (arrival : Arrival) (id : Int32) : Prop :=
  ∃ request, mongrel2Recv host arrival = .ok (some request) ∧ request.connId = id ∧
    mongrel2RequestForDisconnect libraries (some request) ≠ .ok 1

/-- The message is the notice of this connection. -/
def Notifies (arrival : Arrival) (id : Int32) : Prop :=
  ∃ request, mongrel2Recv host arrival = .ok (some request) ∧ request.connId = id ∧
    mongrel2RequestForDisconnect libraries (some request) = .ok 1

/-- A message began something that no later message ended. -/
def Since (begins : List Arrival → Arrival → Prop) (ends : Arrival → Prop)
    (arrivals : List Arrival) : Prop :=
  ∃ earlier arrival later, arrivals = earlier ++ arrival :: later ∧ begins earlier arrival ∧
    ∀ other ∈ later, ¬ ends other

section Since

variable (begins : List Arrival → Arrival → Prop) (ends : Arrival → Prop)

theorem not_since_nil : ¬ Since begins ends [] := by
  rintro ⟨earlier, arrival, later, split, -⟩
  simp at split

/-- What one more message does. -/
theorem since_concat {arrivals : List Arrival} {arrival : Arrival} :
    Since begins ends (arrivals ++ [arrival]) ↔
      begins arrivals arrival ∨ Since begins ends arrivals ∧ ¬ ends arrival := by
  constructor
  · rintro ⟨earlier, first, later, split, began, quiet⟩
    rcases List.eq_nil_or_concat later with rfl | ⟨rest, last, rfl⟩
    · obtain ⟨rfl, same⟩ := List.append_inj' split rfl
      cases same
      exact .inl began
    · rw [List.concat_eq_append, ← List.cons_append, ← List.append_assoc] at split
      obtain ⟨rfl, same⟩ := List.append_inj' split rfl
      cases same
      rw [List.concat_eq_append] at quiet
      refine .inr ⟨⟨earlier, first, rest, rfl, began, fun other member => ?_⟩, ?_⟩
      · exact quiet other (List.mem_append_left _ member)
      · exact quiet arrival (List.mem_append_right _ (List.mem_singleton.mpr rfl))
  · rintro (began | ⟨⟨earlier, first, later, rfl, began, quiet⟩, silent⟩)
    · exact ⟨arrivals, arrival, [], rfl, began, fun other member => absurd member List.not_mem_nil⟩
    · refine ⟨earlier, first, later ++ [arrival], by simp, began, fun other member => ?_⟩
      rcases List.mem_append.mp member with inside | last
      · exact quiet other inside
      · rw [List.mem_singleton.mp last]
        exact silent

end Since

/-- The connection asked and gave no notice since. -/
def LiveAfter (arrivals : List Arrival) (id : Int32) : Prop :=
  Since (fun _ arrival => Asks host libraries arrival id)
    (fun other => Notifies host libraries other id) arrivals

/-- The message is a request of a connection that is not live; the handshake parses
its headers. -/
def Opens (stored : Mongrel2Request) (earlier : List Arrival) (arrival : Arrival) : Prop :=
  ∃ request, mongrel2Recv host arrival = .ok (some request) ∧
    mongrel2RequestForDisconnect libraries (some request) ≠ .ok 1 ∧
    ¬ LiveAfter host libraries earlier request.connId ∧ stored = withHeaders libraries request

/-- A live connection was opened with this request. -/
def Opened (arrivals : List Arrival) (stored : Mongrel2Request) : Prop :=
  Since (Opens host libraries stored)
    (fun other => Notifies host libraries other stored.connId) arrivals

/-- What one more message does to the live connections. -/
theorem liveAfter_concat {arrivals : List Arrival} {arrival : Arrival} {id : Int32} :
    LiveAfter host libraries (arrivals ++ [arrival]) id ↔ Asks host libraries arrival id ∨
      LiveAfter host libraries arrivals id ∧ ¬ Notifies host libraries arrival id :=
  since_concat _ _

theorem opened_concat {arrivals : List Arrival} {arrival : Arrival} {stored : Mongrel2Request} :
    Opened host libraries (arrivals ++ [arrival]) stored ↔
      Opens host libraries stored arrivals arrival ∨ Opened host libraries arrivals stored ∧
        ¬ Notifies host libraries arrival stored.connId :=
  since_concat _ _

theorem withHeaders_connId (request : Mongrel2Request) :
    (withHeaders libraries request).connId = request.connId := by
  obtain ⟨headers, same⟩ := Reporting.withHeaders_eq libraries request
  rw [same]

/-! ## What a turn can do -/

namespace Hub

variable {host libraries} {hub hub' : Hub} {request : Mongrel2Request}

theorem greet_cases {between : Hub} (greeted : hub.greet libraries request = .ok between) :
    (hub.Knows request.connId ∧ between = hub) ∨
      (¬ hub.Knows request.connId ∧ ∃ code pubSocket,
        mongrel2WsReplyUpgrade libraries (some request) hub.pubSocket =
          .ok (code, pubSocket, withHeaders libraries request) ∧
        between = ⟨pubSocket, enter (withHeaders libraries request) hub.live⟩) := by
  rw [greet] at greeted
  split at greeted
  · rename_i known
    cases greeted
    exact .inl ⟨known, rfl⟩
  · rename_i unknown
    obtain ⟨⟨code, pubSocket, final⟩, upgraded, same⟩ := Exec.bind_eq_ok.mp greeted
    obtain ⟨rfl, -⟩ := upgrade_inv upgraded
    cases same
    exact .inr ⟨unknown, code, pubSocket, upgraded, rfl⟩

theorem serve_cases (served : hub.serve host libraries request = .ok hub') :
    ∃ between, hub.greet libraries request = .ok between ∧ hub'.live = between.live ∧
      if 0 < blength request.body then hub'.pubSocket = between.pubSocket
      else between.live.foldlM (sessionReply host (some HELLO)) between.pubSocket =
        .ok hub'.pubSocket := by
  rw [serve] at served
  obtain ⟨between, greeted, served⟩ := Exec.bind_eq_ok.mp served
  refine ⟨between, greeted, ?_⟩
  split at served
  · rename_i nonempty
    obtain ⟨-, -, same⟩ := Exec.bind_eq_ok.mp served
    cases same
    exact ⟨rfl, by rw [if_pos nonempty]⟩
  · rename_i empty
    obtain ⟨pubSocket, replied, same⟩ := Exec.bind_eq_ok.mp served
    cases same
    exact ⟨rfl, by rwa [if_neg empty]⟩

/-- A turn that returns served a request or dropped a connection that it knew. -/
theorem turn_cases {arrival : Arrival} (turned : hub.turn host libraries arrival = .ok hub') :
    ∃ request, mongrel2Recv host arrival = .ok (some request) ∧
      ((mongrel2RequestForDisconnect libraries (some request) ≠ .ok 1 ∧
          hub.serve host libraries request = .ok hub') ∨
        (mongrel2RequestForDisconnect libraries (some request) = .ok 1 ∧
          hub.Knows request.connId ∧ hub'.live = leave request.connId hub.live ∧
          ∃ code, mongrel2Disconnect hub.pubSocket (some request) =
            .ok (code, hub'.pubSocket))) := by
  rw [turn] at turned
  obtain ⟨received, came, turned⟩ := Exec.bind_eq_ok.mp turned
  obtain ⟨asking, answered, turned⟩ := Exec.bind_eq_ok.mp turned
  cases received with
  | none =>
      cases answered
      cases turned
  | some request =>
      refine ⟨request, came, ?_⟩
      rw [asks, if_neg (by simp)] at answered
      obtain ⟨answer, noticed, same⟩ := Exec.bind_eq_ok.mp answered
      cases same
      rw [noticed]
      by_cases notice : answer = 1
      · rw [if_neg (by simp [notice]), drop, deref_some, Exec.ok_bind] at turned
        split at turned
        · rename_i known
          obtain ⟨⟨code, pubSocket⟩, sent, same⟩ := Exec.bind_eq_ok.mp turned
          cases same
          exact .inr ⟨congrArg Except.ok notice, known, rfl, code, sent⟩
        · cases turned
      · rw [if_pos (decide_eq_true notice), deref_some, Exec.ok_bind] at turned
        exact .inl ⟨fun same => notice (Except.ok.inj same), turned⟩

/-- A turn for a request enters its connection, if it is not known. -/
theorem mem_serve (served : hub.serve host libraries request = .ok hub')
    (stored : Mongrel2Request) :
    stored ∈ hub'.live ↔
      (¬ hub.Knows request.connId ∧ stored = withHeaders libraries request) ∨
        stored ∈ hub.live := by
  obtain ⟨between, greeted, live, -⟩ := serve_cases served
  rw [live]
  rcases greet_cases greeted with ⟨known, rfl⟩ | ⟨unknown, code, pubSocket, -, rfl⟩
  · exact ⟨.inr, Or.rec (fun entered => absurd known entered.1) id⟩
  · rw [mem_enter]
    refine or_congr ⟨fun same => ⟨unknown, same⟩, fun entered => entered.2⟩ ?_
    refine ⟨fun kept => kept.1, fun member => ⟨member, fun same => unknown ⟨stored, member, ?_⟩⟩⟩
    exact same.trans (withHeaders_connId libraries request)

/-- The connections that are stored after a turn. -/
theorem mem_turn {arrival : Arrival} (turned : hub.turn host libraries arrival = .ok hub')
    (stored : Mongrel2Request) :
    stored ∈ hub'.live ↔
      (∃ request, mongrel2Recv host arrival = .ok (some request) ∧
        mongrel2RequestForDisconnect libraries (some request) ≠ .ok 1 ∧
        ¬ hub.Knows request.connId ∧ stored = withHeaders libraries request) ∨
      stored ∈ hub.live ∧ ¬ Notifies host libraries arrival stored.connId := by
  obtain ⟨request, came, ⟨asked, served⟩ | ⟨notice, known, live, -⟩⟩ := turn_cases turned
  · have quiet : ¬ Notifies host libraries arrival stored.connId := by
      rintro ⟨other, came', -, notice⟩
      rw [came] at came'
      cases came'
      exact asked notice
    rw [mem_serve served, and_iff_left quiet]
    refine or_congr_left ⟨fun entered => ⟨request, came, asked, entered⟩, ?_⟩
    rintro ⟨other, came', -, entered⟩
    rw [came] at came'
    cases came'
    exact entered
  · have notifies : Notifies host libraries arrival stored.connId ↔
        stored.connId = request.connId := by
      constructor
      · rintro ⟨other, came', same, -⟩
        rw [came] at came'
        cases came'
        exact same.symm
      · exact fun same => ⟨request, came, same.symm, notice⟩
    rw [live, mem_leave, notifies]
    refine ⟨.inr, Or.rec ?_ id⟩
    rintro ⟨other, came', asked, -⟩
    rw [came] at came'
    cases came'
    exact absurd notice asked

/-- The connections that are known after a turn. -/
theorem knows_turn {arrival : Arrival} (turned : hub.turn host libraries arrival = .ok hub')
    (id : Int32) :
    hub'.Knows id ↔ Asks host libraries arrival id ∨
      hub.Knows id ∧ ¬ Notifies host libraries arrival id := by
  constructor
  · rintro ⟨stored, member, rfl⟩
    rcases (mem_turn turned stored).mp member with ⟨request, came, asked, -, rfl⟩ | ⟨inside, quiet⟩
    · exact .inl ⟨request, came, (withHeaders_connId libraries request).symm, asked⟩
    · exact .inr ⟨⟨stored, inside, rfl⟩, quiet⟩
  · rintro (⟨request, came, rfl, asked⟩ | ⟨⟨stored, inside, rfl⟩, quiet⟩)
    · by_cases known : hub.Knows request.connId
      · obtain ⟨stored, inside, same⟩ := known
        refine ⟨stored, (mem_turn turned stored).mpr (.inr ⟨inside, ?_⟩), same⟩
        rintro ⟨other, came', -, notice⟩
        rw [came] at came'
        cases came'
        exact asked notice
      · exact ⟨_, (mem_turn turned _).mpr (.inl ⟨request, came, asked, known, rfl⟩),
          withHeaders_connId libraries request⟩
    · exact ⟨stored, (mem_turn turned stored).mpr (.inr ⟨inside, quiet⟩), rfl⟩

/-- The connections that are known after some messages. -/
theorem knows_run {pubSocket : Option Mongrel2Socket} {arrivals : List Arrival}
    (ran : run host libraries pubSocket arrivals = .ok hub) (id : Int32) :
    hub.Knows id ↔ LiveAfter host libraries arrivals id := by
  induction arrivals using List.reverseRecOn generalizing hub with
  | nil =>
      cases ran
      refine iff_of_false ?_ (not_since_nil _ _)
      rintro ⟨request, member, -⟩
      exact absurd member List.not_mem_nil
  | append_singleton arrivals arrival ih =>
      obtain ⟨between, ranBefore, turned⟩ := foldlM_concat_ok.mp ran
      rw [knows_turn turned, ih ranBefore, liveAfter_concat]

/-- The requests that are stored after some messages. -/
theorem mem_run {pubSocket : Option Mongrel2Socket} {arrivals : List Arrival}
    (ran : run host libraries pubSocket arrivals = .ok hub) (stored : Mongrel2Request) :
    stored ∈ hub.live ↔ Opened host libraries arrivals stored := by
  induction arrivals using List.reverseRecOn generalizing hub with
  | nil =>
      cases ran
      exact iff_of_false List.not_mem_nil (not_since_nil _ _)
  | append_singleton arrivals arrival ih =>
      obtain ⟨between, ranBefore, turned⟩ := foldlM_concat_ok.mp ran
      rw [mem_turn turned, ih ranBefore, opened_concat]
      simp only [Opens, knows_run ranBefore]

end Hub

/-! ## Messages -/

def messages (pubSocket : Option Mongrel2Socket) : List (Bytes × Bool) :=
  (pubSocket.map (·.calls)).getD []

/-- Between two states of a socket it was given some of these messages, in this
order. -/
def SentOf (all : List Bytes) (pubSocket after : Option Mongrel2Socket) : Prop :=
  ∃ sent, messages after = messages pubSocket ++ sent ∧ (sent.map (·.1)).Sublist all

def enveloped (request : Mongrel2Request) (payload : Bytes) : Bytes :=
  responseHead request ((bdata request.uuid).getD []) ++ payload

/-- The answer to the key of a request. -/
def handshake (request : Mongrel2Request) : List Bytes :=
  (keyOf libraries request).toList.map fun key =>
    enveloped request (upgradeText (acceptOf libraries key))

/-- The string `HELLO` in a frame to every connection, for an empty body. -/
def hellos (request : Mongrel2Request) (live : List Mongrel2Request) : List Bytes :=
  if 0 < blength request.body then []
  else live.map fun other => enveloped other (textBytes host HELLO.data)

/-- The messages for a request, where these are stored. -/
def outbox (request : Mongrel2Request) (stored : List Mongrel2Request) : List Bytes :=
  if ∃ other ∈ stored, other.connId = request.connId then hellos host request stored
  else handshake libraries request ++
    hellos host request (Hub.enter (withHeaders libraries request) stored)

namespace SentOf

variable {all rest : List Bytes} {pubSocket between after : Option Mongrel2Socket}
  {request : Mongrel2Request}

theorem unchanged : SentOf all pubSocket pubSocket :=
  ⟨[], (List.append_nil _).symm, List.nil_sublist all⟩

theorem append (first : SentOf all pubSocket between) (second : SentOf rest between after) :
    SentOf (all ++ rest) pubSocket after := by
  obtain ⟨sent, grown, part⟩ := first
  obtain ⟨sent', grown', part'⟩ := second
  refine ⟨sent ++ sent', by rw [grown', grown, List.append_assoc], ?_⟩
  rw [List.map_append]
  exact part.append part'

theorem push {uuid : Bytes} (socket : Mongrel2Socket) (uuidText : bdata request.uuid = some uuid)
    (payload : Bytes) :
    SentOf [enveloped request payload] (some socket)
      (some (socket.push (responseHead request uuid ++ payload))) := by
  refine ⟨[(responseHead request uuid ++ payload, socket.next)], rfl, ?_⟩
  rw [enveloped, uuidText]
  exact List.Sublist.refl _

theorem reply {payload : Option Bstring} {bytes : Bytes} {code : Int}
    (text : ∀ p, payload = some p → p.data = bytes)
    (replied : mongrel2Reply pubSocket (some request) payload = .ok (code, after)) :
    SentOf [enveloped request bytes] pubSocket after := by
  obtain ⟨uuid, uuidText, ⟨-, rfl⟩ | ⟨socket, p, rfl, given, -, rfl, -⟩⟩ := reply_inv replied
  · exact unchanged
  · rw [text p given]
    exact push socket uuidText bytes

theorem disconnect {code : Int}
    (disconnected : mongrel2Disconnect pubSocket (some request) = .ok (code, after)) :
    SentOf [enveloped request []] pubSocket after := by
  obtain ⟨close, made, -, bytes⟩ := bfromcstr_empty
  rw [mongrel2Disconnect, if_neg (by simp)] at disconnected
  split at disconnected
  · cases disconnected
    exact unchanged
  · rw [made, Exec.ok_bind] at disconnected
    refine reply (fun p given => ?_) disconnected
    cases given
    exact bytes

variable {libraries} in
theorem upgrade {code : Int} {final : Mongrel2Request}
    (upgraded : mongrel2WsReplyUpgrade libraries (some request) pubSocket =
      .ok (code, after, final)) : SentOf (handshake libraries request) pubSocket after := by
  obtain ⟨-, status, answer, replied, text⟩ := upgrade_inv upgraded
  obtain ⟨uuid, uuidText, ⟨-, rfl⟩ | ⟨socket, p, rfl, rfl, -, rfl, -⟩⟩ := reply_inv replied
  · exact unchanged
  · obtain ⟨key, found, bytes⟩ := text p rfl
    rw [Reporting.withHeaders_uuid] at uuidText
    rw [handshake, found, bytes, Reporting.withHeaders_responseHead]
    exact push socket uuidText _

variable {host} in
/-- A broadcast replies to its connections in order. -/
theorem sessions {data : Bstring} {live : List Mongrel2Request}
    (replied : live.foldlM (sessionReply host (some data)) pubSocket = .ok after) :
    SentOf (live.map fun request => enveloped request (textBytes host data.data))
      pubSocket after := by
  induction live generalizing pubSocket with
  | nil =>
      cases replied
      exact unchanged
  | cons request live ih =>
      rw [List.foldlM_cons] at replied
      obtain ⟨between, answered, replied⟩ := Exec.bind_eq_ok.mp replied
      obtain ⟨⟨code, socket⟩, framed, same⟩ := Exec.bind_eq_ok.mp answered
      cases same
      have first : SentOf [enveloped request (textBytes host data.data)] pubSocket between := by
        rcases wsReply_inv host framed with rfl | ⟨socket, uuid, rfl, uuidText, rfl⟩
        · exact unchanged
        · exact push socket uuidText _
      exact first.append (ih replied)

end SentOf

namespace Hub

variable {host libraries} {hub hub' : Hub} {request : Mongrel2Request}

/-- A turn for a request sends the handshake and the broadcast. -/
theorem serve_sentOf (served : hub.serve host libraries request = .ok hub') :
    SentOf (outbox host libraries request hub.live) hub.pubSocket hub'.pubSocket := by
  obtain ⟨between, greeted, -, replied⟩ := serve_cases served
  have broadcast : SentOf (hellos host request between.live)
      between.pubSocket hub'.pubSocket := by
    rw [hellos]
    split at replied
    · rename_i nonempty
      rw [if_pos nonempty, replied]
      exact .unchanged
    · rename_i empty
      rw [if_neg empty]
      exact .sessions replied
  rcases greet_cases greeted with ⟨known, rfl⟩ | ⟨unknown, code, pubSocket, upgraded, rfl⟩
  · unfold Knows at known
    rw [outbox, if_pos known]
    exact broadcast
  · unfold Knows at unknown
    rw [outbox, if_neg unknown]
    exact .append (.upgrade upgraded) broadcast

end Hub

/-! ## Turns that return -/

/-- The string `HELLO` is short. -/
theorem length_HELLO : HELLO.data.length < 300 := by
  decide +kernel

section Returns

variable {pubSocket after : Option Mongrel2Socket} {request : Mongrel2Request} {uuid : Bytes}

/-- A reply leaves a socket. -/
theorem open_of_reply {payload : Option Bstring} {code : Int} (isOpen : pubSocket.isSome)
    (replied : mongrel2Reply pubSocket (some request) payload = .ok (code, after)) :
    after.isSome := by
  obtain ⟨uuid, -, ⟨-, rfl⟩ | ⟨socket, p, -, -, -, rfl, -⟩⟩ := reply_inv replied
  · exact isOpen
  · rfl

/-- A reply of a named request with a short payload returns. -/
theorem reply_returns (isOpen : pubSocket.isSome) (uuidText : bdata request.uuid = some uuid)
    (payload : Option Bstring) (short : ∀ p, payload = some p → p.data.length < 1000) :
    ∃ code after, mongrel2Reply pubSocket (some request) payload = .ok (code, after) := by
  obtain ⟨socket, rfl⟩ := Option.isSome_iff_exists.mp isOpen
  cases payload with
  | none => exact ⟨-1, _, reply_refuses uuidText _ none (.inr (.inl rfl))⟩
  | some payload =>
      have few := short payload rfl
      by_cases long : 1073741822 < (responseHead request uuid).length
      · exact ⟨-1, _, reply_refuses uuidText _ _ (.inl long)⟩
      · exact ⟨0, _, reply_sends uuidText socket payload (by omega) (by omega)⟩

theorem disconnect_returns (isOpen : pubSocket.isSome) (uuidText : bdata request.uuid = some uuid) :
    ∃ code after, mongrel2Disconnect pubSocket (some request) = .ok (code, after) := by
  obtain ⟨close, made, -, bytes⟩ := bfromcstr_empty
  obtain ⟨code, after, replied⟩ := reply_returns isOpen uuidText (some close) <| by
    rintro p ⟨⟩
    rw [bytes]
    decide
  refine ⟨code, after, ?_⟩
  obtain ⟨socket, rfl⟩ := Option.isSome_iff_exists.mp isOpen
  rw [mongrel2Disconnect, if_neg (by simp), if_neg (by simp), made, Exec.ok_bind]
  exact replied

theorem open_of_disconnect {code : Int} (isOpen : pubSocket.isSome)
    (disconnected : mongrel2Disconnect pubSocket (some request) = .ok (code, after)) :
    after.isSome := by
  rw [mongrel2Disconnect, if_neg (by simp)] at disconnected
  split at disconnected
  · cases disconnected
    exact isOpen
  · obtain ⟨close, -, replied⟩ := Exec.bind_eq_ok.mp disconnected
    exact open_of_reply isOpen replied

variable {libraries} in
theorem upgrade_returns (isOpen : pubSocket.isSome) (uuidText : bdata request.uuid = some uuid)
    (short : ∀ key, keyOf libraries request = some key → key.length < 2147483647) :
    ∃ code after final, mongrel2WsReplyUpgrade libraries (some request) pubSocket =
      .ok (code, after, final) ∧ after.isSome := by
  have goes : ¬ Reporting.UpgradeStops libraries pubSocket request := by
    rintro (⟨key, found, wraps⟩ | nameless | ⟨-, closed, -⟩)
    · have less := short key found
      have more := wraps.1
      omega
    · rw [uuidText] at nameless
      cases nameless
    · rw [closed] at isOpen
      cases isOpen
  obtain ⟨after, final, upgraded, -⟩ :=
    Reporting.upgrade_sent_iff libraries pubSocket request goes
  refine ⟨0, after, final, upgraded, ?_⟩
  rw [mongrel2WsReplyUpgrade, deref_some, Exec.ok_bind] at upgraded
  obtain ⟨⟨text, named⟩, -, upgraded⟩ := Exec.bind_eq_ok.mp upgraded
  obtain ⟨⟨status, socket⟩, replied, same⟩ := Exec.bind_eq_ok.mp upgraded
  cases same
  exact open_of_reply isOpen replied

variable {host} in
/-- Without the printout a session is greeted with a short text. -/
theorem sessionReply_returns (ndebug : host.ndebug = true) (isOpen : pubSocket.isSome)
    (uuidText : bdata request.uuid = some uuid) {hello : Bstring} (few : hello.data.length < 300) :
    ∃ after, sessionReply host (some hello) pubSocket request = .ok after ∧ after.isSome := by
  have greeting : dataBytes (some hello) = hello.data := rfl
  have short : (textBytes host hello.data).length < 1000 := by
    have width : (sizeClass hello.data.length).extendedWidth ≤ 8 := by
      cases sizeClass hello.data.length <;> decide
    rw [length_textBytes]
    omega
  rw [sessionReply]
  by_cases memory : hasMemory host (dataBytes (some hello)) = true
  · obtain ⟨outgoing, bytes, replies⟩ := wsReply_replies host pubSocket (some request) memory
      (.inl ndebug) (by rw [greeting]; omega)
    obtain ⟨code, after, replied⟩ := reply_returns isOpen uuidText (some outgoing) <| by
      rintro p ⟨⟩
      rw [bytes, greeting]
      exact short
    refine ⟨after, ?_, open_of_reply isOpen replied⟩
    rw [replies, replied]
    rfl
  · refine ⟨pubSocket, ?_, isOpen⟩
    rw [wsReply_no_memory host pubSocket (some request) (Bool.eq_false_iff.mpr memory)]
    rfl

variable {host} in
theorem lookAt_returns (ndebug : host.ndebug = true) {body : Option Bstring}
    (nonempty : 0 < blength body) : lookAt host body = .ok () := by
  cases body with
  | none => exact absurd nonempty (lt_irrefl 0)
  | some body =>
      obtain ⟨mlen, bytes, fits⟩ := body
      cases bytes with
      | nil => exact absurd nonempty (lt_irrefl 0)
      | cons byte rest =>
          have opcode (len : Nat) : mongrel2WsFrameGetOpcode host len (byte :: rest ++ [0]) =
              .ok (byte &&& 0x0F) := by
            rw [mongrel2WsFrameGetOpcode, ndebug]
            rfl
          have held : bdata (some ⟨mlen, byte :: rest, fits⟩) = some (byte :: rest) := rfl
          rw [lookAt, held, deref_some, Exec.ok_bind]
          dsimp only
          rw [opcode, Exec.ok_bind, ndebug]
          split <;> rfl

end Returns

namespace Hub

variable {host libraries} {hub hub' : Hub} {request : Mongrel2Request}

/-- There is a socket, and every connection has the identity of its server. -/
structure Named (hub : Hub) : Prop where
  isOpen : hub.pubSocket.isSome
  uuids : ∀ request ∈ hub.live, ∃ uuid, bdata request.uuid = some uuid

theorem greet_returns (named : hub.Named) {uuid : Bytes}
    (uuidText : bdata request.uuid = some uuid)
    (short : ∀ key, keyOf libraries request = some key → key.length < 2147483647) :
    ∃ between, hub.greet libraries request = .ok between ∧ between.Named := by
  rw [greet]
  split
  · exact ⟨hub, rfl, named⟩
  · obtain ⟨code, after, final, upgraded, isOpen⟩ :=
      upgrade_returns named.isOpen uuidText short
    refine ⟨_, by rw [upgraded]; rfl, isOpen, fun other member => ?_⟩
    rcases mem_enter.mp member with rfl | ⟨inside, -⟩
    · rw [(upgrade_inv upgraded).1]
      exact ⟨uuid, (Reporting.withHeaders_uuid libraries request).trans uuidText⟩
    · exact named.uuids other inside

theorem serve_returns (ndebug : host.ndebug = true) (named : hub.Named) {uuid : Bytes}
    (uuidText : bdata request.uuid = some uuid)
    (short : ∀ key, keyOf libraries request = some key → key.length < 2147483647) :
    ∃ hub', hub.serve host libraries request = .ok hub' ∧ hub'.Named := by
  obtain ⟨between, greeted, namedBetween⟩ := greet_returns named uuidText short
  rw [serve, greeted, Exec.ok_bind]
  split
  · rename_i nonempty
    rw [lookAt_returns ndebug nonempty]
    exact ⟨between, rfl, namedBetween⟩
  · have greets (socket : Option Mongrel2Socket) (other) (member : other ∈ between.live)
        (isOpen : socket.isSome = true) :
        ∃ after, sessionReply host (some HELLO) socket other = .ok after ∧ after.isSome = true := by
      obtain ⟨uuid, text⟩ := namedBetween.uuids other member
      exact sessionReply_returns ndebug isOpen text length_HELLO
    obtain ⟨after, replied, isOpen⟩ := foldlM_returns greets namedBetween.isOpen
    rw [replied]
    exact ⟨_, rfl, isOpen, namedBetween.uuids⟩

variable {language : JsonLanguage}

/-- What the loop reads of a request that it received. -/
theorem recv_served (precise : Precise libraries language) {arrival : Arrival}
    (came : mongrel2Recv host arrival = .ok (some request)) :
    ∃ uuid body : Bstring, bdata request.uuid = some uuid.data ∧ request.body = some body ∧
      (∀ key, keyOf libraries request = some key → key.length < 2147483647) ∧
      ∃ answer, mongrel2RequestForDisconnect libraries (some request) = .ok answer := by
  obtain ⟨raw, parsed⟩ := recv_parsed host came
  obtain ⟨uuid, rawHeaders, body, uuidEq, headersEq, bodyEq, unloaded, shortHeaders, shortBody⟩ :=
    parse_held host parsed
  have uuidText : bdata request.uuid = some uuid.data := by rw [uuidEq]; rfl
  have held : bdata request.body = some body.data := by rw [bodyEq]; rfl
  refine ⟨uuid, body, uuidText, bodyEq, fun key found => ?_, ?_⟩
  · have nulFree := cString_nulFree rawHeaders.data
    have loaded : headersOf libraries request = libraries.jsonLoads (cString rawHeaders.data) := by
      rw [headersOf, unloaded, headersEq]
      rfl
    rw [keyOf, loaded] at found
    have value := (jsonStringValue_eq_iff fun text value =>
      (loaded_string precise nulFree value).1).mp found
    have most := (loaded_string precise nulFree value).2
    have cut := length_cString_le rawHeaders.data
    omega
  · obtain ⟨notice, other⟩ := requestForDisconnect_cString precise held shortBody
    by_cases noticed : IsNotice language (cString body.data)
    · exact ⟨1, notice noticed⟩
    · exact ⟨0, other noticed⟩

/-- A parsed request or a notice of a known connection does not stop the loop. -/
theorem turn_returns (ndebug : host.ndebug = true) (precise : Precise libraries language)
    (named : hub.Named) {arrival : Arrival}
    (came : mongrel2Recv host arrival = .ok (some request))
    (known : mongrel2RequestForDisconnect libraries (some request) = .ok 1 →
      hub.Knows request.connId) :
    ∃ hub', hub.turn host libraries arrival = .ok hub' ∧ hub'.Named := by
  obtain ⟨uuid, body, uuidText, -, keys, answer, answered⟩ := recv_served precise came
  rw [turn, came, Exec.ok_bind, asks, if_neg (by simp), answered, Exec.ok_bind, Exec.pure_eq_ok,
    Exec.ok_bind]
  by_cases notice : answer = 1
  · rw [if_neg (by simp [notice]), drop, deref_some, Exec.ok_bind,
      if_pos (known (notice ▸ answered))]
    obtain ⟨code, after, closed⟩ := disconnect_returns named.isOpen uuidText
    rw [closed]
    refine ⟨_, rfl, open_of_disconnect named.isOpen closed, fun request member => ?_⟩
    exact named.uuids request (mem_leave.mp member).1
  · rw [if_pos (decide_eq_true notice), deref_some, Exec.ok_bind]
    exact serve_returns ndebug named uuidText keys

end Hub

/-! ## Runs -/

/-- A run that returns made every turn. -/
theorem Hub.run_split {pubSocket : Option Mongrel2Socket} {earlier later : List Arrival}
    {arrival : Arrival} {hub : Hub}
    (ran : Hub.run host libraries pubSocket (earlier ++ arrival :: later) = .ok hub) :
    ∃ before after, Hub.run host libraries pubSocket earlier = .ok before ∧
      before.turn host libraries arrival = .ok after ∧
      Hub.run host libraries pubSocket (earlier ++ [arrival]) = .ok after := by
  rw [List.append_cons] at ran
  obtain ⟨after, ranAfter, -⟩ := foldlM_append_ok.mp ran
  obtain ⟨before, ranBefore, turned⟩ := foldlM_concat_ok.mp ranAfter
  exact ⟨before, after, ranBefore, turned, ranAfter⟩

/-- In every run that returns, the store has one node for each connection that asked
and gave no notice since.  A turn sends some of these messages, in this order: for a
notice the one that closes the connection; for a request the handshake of a new
connection and the frames for the stored requests, which are those that opened the
live connections. -/
theorem serves_live_connections {pubSocket : Option Mongrel2Socket} {arrivals : List Arrival}
    {main : Main} (ran : wsHandshake host libraries pubSocket arrivals = .ok main) :
    (∃ ids, Represents main.sessions ids ∧ ids.Nodup ∧
      ∀ id, id ∈ ids ↔ LiveAfter host libraries arrivals id) ∧
    ∀ earlier arrival later, arrivals = earlier ++ arrival :: later →
      ∃ before after tree request,
        wsHandshake host libraries pubSocket earlier = .ok before ∧
        wsHandshake host libraries pubSocket (earlier ++ [arrival]) = .ok after ∧
        Stores before.sessions.dict tree ∧
        (∀ stored, stored ∈ requests tree ↔ Opened host libraries earlier stored) ∧
        mongrel2Recv host arrival = .ok (some request) ∧
        ((mongrel2RequestForDisconnect libraries (some request) = .ok 1 ∧
            SentOf [enveloped request []] before.pubSocket after.pubSocket) ∨
          (mongrel2RequestForDisconnect libraries (some request) ≠ .ok 1 ∧
            SentOf (outbox host libraries request (requests tree))
              before.pubSocket after.pubSocket)) := by
  obtain ⟨hub, modelled, serves⟩ :=
    (run_agrees host libraries pubSocket arrivals).returned ran
  constructor
  · obtain ⟨-, free, ascending, tree, stores, listed⟩ := serves
    refine ⟨connIds tree, ⟨free, tree, stores, rfl⟩, nodup_connIds listed ascending, fun id => ?_⟩
    rw [← knows_iff listed, Hub.knows_run modelled]
  · rintro earlier arrival later rfl
    obtain ⟨before, after, ranBefore, turned, ranAfter⟩ := Hub.run_split host libraries modelled
    obtain ⟨first, ranFirst, servesFirst⟩ :=
      (run_agrees host libraries pubSocket earlier).returns ranBefore
    obtain ⟨second, ranSecond, servesSecond⟩ :=
      (run_agrees host libraries pubSocket (earlier ++ [arrival])).returns ranAfter
    obtain ⟨tree, stores, listed⟩ := servesFirst.stored
    obtain ⟨request, came, sent⟩ := Hub.turn_cases turned
    refine ⟨first, second, tree, request, ranFirst, ranSecond, stores, fun stored => ?_, came, ?_⟩
    · rw [listed, Hub.mem_run ranBefore]
    · rw [servesFirst.socket, servesSecond.socket, listed]
      rcases sent with ⟨asked, served⟩ | ⟨notice, -, -, code, closed⟩
      · exact .inr ⟨asked, Hub.serve_sentOf served⟩
      · exact .inl ⟨notice, .disconnect closed⟩

/-- What the loop needs of its messages: each is parsed, and a notice is one of a live
connection. -/
def InOrder (arrivals : List Arrival) : Prop :=
  ∀ earlier arrival later, arrivals = earlier ++ arrival :: later →
    ∃ request, mongrel2Recv host arrival = .ok (some request) ∧
      (mongrel2RequestForDisconnect libraries (some request) = .ok 1 →
        LiveAfter host libraries earlier request.connId)

theorem inOrder_nil : InOrder host libraries [] := by
  intro earlier arrival later split
  simp at split

theorem inOrder_concat {arrivals : List Arrival} {arrival : Arrival} :
    InOrder host libraries (arrivals ++ [arrival]) ↔ InOrder host libraries arrivals ∧
      ∃ request, mongrel2Recv host arrival = .ok (some request) ∧
        (mongrel2RequestForDisconnect libraries (some request) = .ok 1 →
          LiveAfter host libraries arrivals request.connId) := by
  constructor
  · intro inOrder
    refine ⟨fun earlier other later split => ?_, inOrder arrivals arrival [] rfl⟩
    exact inOrder earlier other (later ++ [arrival]) (by rw [split]; simp)
  · rintro ⟨inOrder, last⟩ earlier other later split
    rcases List.eq_nil_or_concat later with rfl | ⟨rest, final, rfl⟩
    · obtain ⟨rfl, same⟩ := List.append_inj' split rfl
      cases same
      exact last
    · rw [List.concat_eq_append, ← List.cons_append, ← List.append_assoc] at split
      obtain ⟨rfl, -⟩ := List.append_inj' split rfl
      exact inOrder earlier other rest rfl

/-- The hub serves messages in order. -/
theorem Hub.run_returns {language : JsonLanguage} (ndebug : host.ndebug = true)
    (precise : Precise libraries language) (socket : Mongrel2Socket) {arrivals : List Arrival}
    (inOrder : InOrder host libraries arrivals) :
    ∃ hub, Hub.run host libraries (some socket) arrivals = .ok hub ∧ hub.Named := by
  induction arrivals using List.reverseRecOn with
  | nil => exact ⟨_, rfl, rfl, fun request member => absurd member List.not_mem_nil⟩
  | append_singleton arrivals arrival ih =>
      obtain ⟨inOrderBefore, request, came, live⟩ := (inOrder_concat host libraries).mp inOrder
      obtain ⟨before, ranBefore, named⟩ := ih inOrderBefore
      obtain ⟨after, turned, namedAfter⟩ := turn_returns ndebug precise named came
        fun notice => (knows_run ranBefore _).mpr (live notice)
      exact ⟨after, foldlM_concat_ok.mpr ⟨before, ranBefore, turned⟩, namedAfter⟩

/-- Where overflows wrap, the hub dereferences a null pointer at a message that is not
parsed and at a notice of a connection that is not live. -/
theorem Hub.run_stops {language : JsonLanguage} (ndebug : host.ndebug = true)
    (wraps : host.trapv = false) (precise : Precise libraries language) (socket : Mongrel2Socket)
    {arrivals : List Arrival} (short : ∀ arrival ∈ arrivals, arrival.message.length < 2147483647)
    (disorder : ¬ InOrder host libraries arrivals) :
    Hub.run host libraries (some socket) arrivals = .error .nullPointer := by
  induction arrivals using List.reverseRecOn with
  | nil => exact absurd (inOrder_nil host libraries) disorder
  | append_singleton arrivals arrival ih =>
      rw [Hub.run, List.foldlM_append, ← Hub.run]
      by_cases inOrder : InOrder host libraries arrivals
      · obtain ⟨before, ranBefore, named⟩ :=
          run_returns host libraries ndebug precise socket inOrder
        obtain ⟨received, came⟩ := recv_returns host wraps arrival (short arrival (by simp))
        rw [ranBefore, Exec.ok_bind, foldlM_singleton]
        cases received with
        | none =>
            rw [turn, came]
            rfl
        | some request =>
            by_contra goes
            refine disorder ((inOrder_concat host libraries).mpr ⟨inOrder, request, came, ?_⟩)
            intro notice
            by_contra dead
            have unknown : ¬ before.Knows request.connId :=
              fun known => dead ((knows_run ranBefore _).mp known)
            refine goes ?_
            rw [turn, came, Exec.ok_bind, asks, if_neg (by simp), notice, Exec.ok_bind,
              Exec.pure_bind, if_neg (by simp), drop, deref_some, Exec.ok_bind, if_neg unknown]
      · rw [ih (fun other member => short other (List.mem_append_left _ member)) inOrder]
        rfl

/-- Without the printout, the loop goes on exactly as long as every message is parsed
and every notice is one of a live connection.  Otherwise it dereferences a null pointer,
where overflows wrap and the messages are shorter than `INT_MAX`. -/
theorem survives_iff {language : JsonLanguage} (ndebug : host.ndebug = true)
    (precise : Precise libraries language) (socket : Mongrel2Socket) (arrivals : List Arrival) :
    ((∃ main, wsHandshake host libraries (some socket) arrivals = .ok main) ↔
      InOrder host libraries arrivals) ∧
    (host.trapv = false → (∀ arrival ∈ arrivals, arrival.message.length < 2147483647) →
      ¬ InOrder host libraries arrivals →
        wsHandshake host libraries (some socket) arrivals = .error .nullPointer) := by
  have agree := run_agrees host libraries (some socket) arrivals
  refine ⟨?_, fun wraps short disorder => ?_⟩
  · rw [agree.returns_iff]
    constructor
    · rintro ⟨hub, ran⟩ earlier arrival later rfl
      obtain ⟨before, after, ranBefore, turned, -⟩ := Hub.run_split host libraries ran
      obtain ⟨request, came, ⟨asked, -⟩ | ⟨-, known, -⟩⟩ := Hub.turn_cases turned
      · exact ⟨request, came, fun notice => absurd notice asked⟩
      · exact ⟨request, came, fun _ => (Hub.knows_run ranBefore _).mp known⟩
    · intro inOrder
      obtain ⟨hub, ran, -⟩ := Hub.run_returns host libraries ndebug precise socket inOrder
      exact ⟨hub, ran⟩
  · exact agree.stops
      (Hub.run_stops host libraries ndebug wraps precise socket short disorder)

/-! ## Connection 7 -/

def arrivalSeven (body : Bytes) : Arrival := ⟨noticeMessage body, 0, 0⟩

theorem recv_arrivalSeven (body : Bytes) (short : (noticeMessage body).length < 2147483647) :
    ∃ request, mongrel2Recv linuxHost (arrivalSeven body) = .ok (some request) ∧
      request.connId = 7 ∧ bdata request.body = some body := by
  obtain ⟨raw, bytes, received⟩ := recv_eq linuxHost (arrivalSeven body) short
  have documented : raw.data = documented [117] (decimal 7) [64, 42] [123, 125] body := bytes
  obtain ⟨request, parsed, described⟩ := describes_documented linuxHost 0 0 (by decide)
    (decimal_no_space 7) (by decide) documented
  have seven : sscanfInt linuxHost (decimal 7) 0 = 7 := by decide
  exact ⟨request, received.trans parsed, described.connId.trans seven, described.body⟩

theorem asks_arrivalSeven : Asks linuxHost noticeLibraries (arrivalSeven []) 7 := by
  obtain ⟨request, came, connId, held⟩ := recv_arrivalSeven [] (by decide)
  refine ⟨request, came, connId, fun notice => ?_⟩
  have other : ¬ IsNotice noticeLanguage (cString []) := by
    rintro ⟨members, ⟨impossible, -⟩, -⟩
    exact absurd impossible (by decide)
  rw [(requestForDisconnect_cString precise_notice held (by decide)).2 other] at notice
  cases notice

theorem notifies_arrivalSeven : Notifies linuxHost noticeLibraries (arrivalSeven noticeText) 7 := by
  obtain ⟨request, came, connId, held⟩ := recv_arrivalSeven noticeText (by decide)
  obtain ⟨notice, -⟩ := requestForDisconnect_cString precise_notice held (by decide)
  exact ⟨request, came, connId, notice isNotice_noticeText⟩

/-- A request and then the notice. -/
theorem inOrder_seven :
    InOrder linuxHost noticeLibraries ([] ++ [arrivalSeven []] ++ [arrivalSeven noticeText]) := by
  obtain ⟨request, came, -, -⟩ := recv_arrivalSeven [] (by decide)
  obtain ⟨notice, noticed, connId, -⟩ := recv_arrivalSeven noticeText (by decide)
  have asks := asks_arrivalSeven
  refine (inOrder_concat _ _).mpr ⟨(inOrder_concat _ _).mpr ⟨inOrder_nil _ _, request, came, ?_⟩,
    notice, noticed, fun _ => ?_⟩
  · obtain ⟨other, same, -, asked⟩ := asks
    rw [came] at same
    cases same
    exact fun answered => absurd answered asked
  · rw [connId]
    exact (liveAfter_concat _ _).mpr (.inl asks)

theorem disorder_seven : ¬ InOrder linuxHost noticeLibraries [arrivalSeven noticeText] := by
  intro inOrder
  obtain ⟨request, came, live⟩ := inOrder [] (arrivalSeven noticeText) [] rfl
  obtain ⟨other, came', -, notice⟩ := notifies_arrivalSeven
  rw [came] at came'
  cases came'
  exact not_since_nil _ _ (live notice)

/-- The loop gets through a request and the notice, but not through the notice alone. -/
theorem survives_seven :
    (∃ main, wsHandshake linuxHost noticeLibraries (some openSocket)
      [arrivalSeven [], arrivalSeven noticeText] = .ok main) ∧
    wsHandshake linuxHost noticeLibraries (some openSocket) [arrivalSeven noticeText] =
      .error .nullPointer := by
  have survives := survives_iff linuxHost noticeLibraries rfl precise_notice openSocket
  refine ⟨(survives _).1.mpr inOrder_seven, (survives _).2 rfl ?_ disorder_seven⟩
  intro arrival member
  rw [List.mem_singleton.mp member]
  decide

/-- After its request connection 7 is in the store, and the request was answered as one
of a new connection. -/
theorem serves_connection_seven :
    ∃ before main ids request,
      wsHandshake linuxHost noticeLibraries (some openSocket) [] = .ok before ∧
      wsHandshake linuxHost noticeLibraries (some openSocket) [arrivalSeven []] = .ok main ∧
      Represents main.sessions ids ∧ 7 ∈ ids ∧ request.connId = 7 ∧
      SentOf (outbox linuxHost noticeLibraries request []) before.pubSocket main.pubSocket := by
  have inOrder := ((inOrder_concat _ _).mp inOrder_seven).1
  obtain ⟨hub, modelled, -⟩ :=
    Hub.run_returns linuxHost noticeLibraries rfl precise_notice openSocket inOrder
  obtain ⟨main, ran, -⟩ := (run_agrees _ _ _ _).returns modelled
  obtain ⟨⟨ids, represents, -, live⟩, turns⟩ := serves_live_connections _ _ ran
  obtain ⟨before, after, tree, request, ranBefore, ranAfter, -, opened, came, sent⟩ :=
    turns [] (arrivalSeven []) [] rfl
  obtain ⟨other, came', connId, asked⟩ := asks_arrivalSeven
  rw [came] at came'
  cases came'
  rw [ran] at ranAfter
  cases ranAfter
  have none : requests tree = [] := List.eq_nil_iff_forall_not_mem.mpr fun stored member =>
    not_since_nil _ _ ((opened stored).mp member)
  rw [none] at sent
  refine ⟨before, main, ids, request, ranBefore, ran, represents, (live 7).mpr ?_, connId, ?_⟩
  · exact (liveAfter_concat linuxHost noticeLibraries).mpr (.inl asks_arrivalSeven)
  · rcases sent with ⟨notice, -⟩ | ⟨-, sent⟩
    · exact absurd notice asked
    · exact sent

end M2Handler.Example.WsHandshake

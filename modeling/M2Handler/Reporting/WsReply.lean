import M2Handler.Reporting.Replies
import M2Handler.Websocket.Sending

/-!
# Reported WebSocket replies

`mongrel2_ws_reply` returns `0` whatever `mongrel2_reply` answered, so it is
honest where the frame is deliverable, where there is no memory for it, and where
an assertion fails.
-/

namespace M2Handler.Reporting

open Machine Text Bstr Handler Websocket Delivery

section WsReply

variable (host : Host) (data : Bytes)

/-- With memory for the frame, a WebSocket reply stops in an assertion, in the
printout, or at a null pointer or past a block of the reply. -/
def Stops (socket : Option Mongrel2Socket) (req : Mongrel2Request) : Prop :=
  ¬ passesDebug host data ∨ (textBytes host data).length = 2147483647 ∨
    (host.ndebug = false ∧ 2147483647 < (textBytes host data).length) ∨ bdata req.uuid = none ∨
    ∃ uuid, bdata req.uuid = some uuid ∧ (responseHead req uuid).length ≤ 1073741822 ∧
      ((responseHead req uuid).length + (textBytes host data).length = 2147483647 ∨
        ((responseHead req uuid).length + (textBytes host data).length < 2147483647 ∧
          socket = none))

/-- An assertion of the reply fails: that of `set_payload_size`, or the one on the length of a
frame that was not copied. -/
def Asserts : Prop :=
  host.ndebug = false ∧
    (data = [] ∨ passesDebug host data ∧ 2147483647 < (textBytes host data).length)

/-- A frame for which there is memory passes the printout and can be delivered. -/
def FrameDeliverable (more : Nat) (socket : Option Mongrel2Socket) (req : Mongrel2Request) : Prop :=
  hasMemory host data = true ∧ passesDebug host data ∧
    DeliverableAfter more socket req (textBytes host data).length

end WsReply

section WsReplies

variable (host : Host) (data : Option Bstring) {socket : Option Mongrel2Socket}
  {req : Mongrel2Request} (memory : hasMemory host (dataBytes data) = true)
include memory

/-- The fault of a reply that stops is a failed assertion exactly where one fails. -/
theorem wsReply_ends (stops : Stops host (dataBytes data) socket req) :
    ∃ fault, mongrel2WsReply host socket (some req) data = .error fault ∧
      (fault = .assertion ↔ Asserts host (dataBytes data)) := by
  have nonempty (passed : passesDebug host (dataBytes data)) (debug : host.ndebug = false) :
      dataBytes data ≠ [] := by
    obtain ndebug | ⟨nonempty, -⟩ := passed
    · rw [ndebug] at debug
      cases debug
    · exact nonempty
  by_cases passed : passesDebug host (dataBytes data)
  · obtain short | longest | long :=
      lt_trichotomy (textBytes host (dataBytes data)).length 2147483647
    · have silent : ¬ Asserts host (dataBytes data) := by
        rintro ⟨debug, empty | ⟨-, more⟩⟩
        · exact nonempty passed debug empty
        · omega
      obtain ⟨outgoing, bytes, replies⟩ := wsReply_replies host socket (some req) memory passed short
      have length := congrArg List.length bytes
      rw [replies]
      obtain unprinted | equal | ⟨-, more⟩ | nameless | ⟨uuid, uuidText, head, total⟩ := stops
      · exact absurd passed unprinted
      · omega
      · omega
      · rw [reply_no_uuid nameless]
        exact ⟨_, rfl, iff_of_false (by decide) silent⟩
      · obtain equal | ⟨fits, rfl⟩ := total
        · rw [reply_overruns uuidText socket outgoing head (by rw [length]; exact equal)]
          exact ⟨_, rfl, iff_of_false (by decide) silent⟩
        · rw [reply_no_socket uuidText outgoing head (by rw [length]; exact fits)]
          exact ⟨_, rfl, iff_of_false (by decide) silent⟩
    · refine ⟨_, wsReply_overruns host socket (some req) memory passed longest, ?_⟩
      refine iff_of_false (by decide) ?_
      rintro ⟨debug, empty | ⟨-, more⟩⟩
      · exact nonempty passed debug empty
      · omega
    · rw [wsReply_loses host socket (some req) memory passed long]
      cases debug : host.ndebug with
      | false => exact ⟨_, rfl, iff_of_true rfl ⟨debug, .inr ⟨passed, long⟩⟩⟩
      | true =>
          have silent : ¬ Asserts host (dataBytes data) := fun asserts => by
            rw [asserts.1] at debug
            cases debug
          obtain unprinted | equal | ⟨checked, -⟩ | nameless | ⟨uuid, uuidText, head, total⟩ := stops
          · exact absurd passed unprinted
          · omega
          · rw [debug] at checked
            cases checked
          · rw [reply_no_uuid nameless]
            exact ⟨_, rfl, iff_of_false (by decide) silent⟩
          · omega
  · obtain ⟨fault, -, empty, stopped⟩ := wsReply_stops host socket (some req) memory passed
    refine ⟨fault, stopped, empty.trans ⟨fun nothing => ⟨?_, .inl nothing⟩, ?_⟩⟩
    · exact Bool.eq_false_iff.mpr fun ndebug => passed (.inl ndebug)
    · rintro ⟨-, nothing | ⟨impossible, -⟩⟩
      · exact nothing
      · exact absurd impossible passed

omit req in
/-- A failed assertion does not depend on the request or the socket. -/
theorem wsReply_asserts (req : Option Mongrel2Request) (asserts : Asserts host (dataBytes data)) :
    mongrel2WsReply host socket req data = .error .assertion := by
  obtain ⟨debug, empty | ⟨passed, long⟩⟩ := asserts
  · have printed : ¬ passesDebug host (dataBytes data) := by
      rintro (ndebug | ⟨nonempty, -⟩)
      · rw [ndebug] at debug
        cases debug
      · exact nonempty empty
    obtain ⟨fault, -, same, stopped⟩ := wsReply_stops host socket req memory printed
    rw [stopped, same.mpr empty]
  · rw [wsReply_loses host socket req memory passed long, debug]
    rfl

omit memory in
/-- Without a request the run stops too. -/
theorem wsReply_no_request (socket : Option Mongrel2Socket)
    (memory : hasMemory host (dataBytes data) = true) (silent : ¬ Asserts host (dataBytes data)) :
    ∃ fault, mongrel2WsReply host socket none data = .error fault ∧ fault ≠ .assertion := by
  by_cases passed : passesDebug host (dataBytes data)
  · obtain short | longest | long :=
      lt_trichotomy (textBytes host (dataBytes data)).length 2147483647
    · obtain ⟨outgoing, -, replies⟩ := wsReply_replies host socket none memory passed short
      exact ⟨.nullPointer, replies, by decide⟩
    · exact ⟨_, wsReply_overruns host socket none memory passed longest, by decide⟩
    · rw [wsReply_loses host socket none memory passed long]
      cases debug : host.ndebug with
      | true => exact ⟨.nullPointer, rfl, by decide⟩
      | false => exact absurd ⟨debug, .inr ⟨passed, long⟩⟩ silent
  · obtain ⟨fault, -, empty, stopped⟩ := wsReply_stops host socket none memory passed
    refine ⟨fault, stopped, fun asserted => silent ⟨?_, .inl (empty.mp asserted)⟩⟩
    exact Bool.eq_false_iff.mpr fun ndebug => passed (.inl ndebug)

/-- A WebSocket reply that does not stop returns `0`, whether or not it has handed
a message over. -/
theorem wsReply_goes (goes : ¬ Stops host (dataBytes data) socket req) :
    ∃ after uuid, mongrel2WsReply host socket (some req) data = .ok (0, after) ∧
      bdata req.uuid = some uuid ∧
      ((∃ s, socket = some s ∧
          Fits (responseHead req uuid).length (textBytes host (dataBytes data)).length ∧
          after = some (s.push (responseHead req uuid ++ textBytes host (dataBytes data)))) ∨
        (after = socket ∧
          ¬ Fits (responseHead req uuid).length (textBytes host (dataBytes data)).length)) := by
  simp only [Stops, not_or, not_not] at goes
  obtain ⟨passed, other, checked, named, kept⟩ := goes
  obtain ⟨uuid, uuidText⟩ := Option.ne_none_iff_exists'.mp named
  obtain short | longest | long :=
    lt_trichotomy (textBytes host (dataBytes data)).length 2147483647
  · obtain ⟨outgoing, bytes, replies⟩ := wsReply_replies host socket (some req) memory passed short
    have length := congrArg List.length bytes
    by_cases fits : Fits (responseHead req uuid).length (textBytes host (dataBytes data)).length
    · cases socket with
      | none => exact absurd ⟨uuid, uuidText, fits.1, .inr ⟨fits.2, rfl⟩⟩ kept
      | some s =>
          have sends := wsReply_sends host data memory passed req uuidText s fits.1 fits.2
          exact ⟨_, uuid, sends, uuidText, .inl ⟨s, rfl, fits, rfl⟩⟩
    · refine ⟨socket, uuid, ?_, uuidText, .inr ⟨rfl, fits⟩⟩
      have refused : mongrel2Reply socket (some req) (some outgoing) = .ok (-1, socket) := by
        refine reply_refuses uuidText socket _ ?_
        by_cases head : 1073741822 < (responseHead req uuid).length
        · exact .inl head
        · refine .inr (.inr ⟨outgoing, rfl, ?_⟩)
          by_contra within
          have equal : (responseHead req uuid).length + (textBytes host (dataBytes data)).length =
              2147483647 := by
            by_contra different
            exact fits ⟨by omega, by omega⟩
          exact kept ⟨uuid, uuidText, by omega, .inl equal⟩
      rw [replies, refused]
      rfl
  · exact absurd longest other
  · have release : host.ndebug = true := by
      by_contra debug
      exact checked ⟨Bool.eq_false_iff.mpr debug, long⟩
    have fits : ¬ Fits (responseHead req uuid).length (textBytes host (dataBytes data)).length := by
      rintro ⟨-, total⟩
      omega
    refine ⟨socket, uuid, ?_, uuidText, .inr ⟨rfl, fits⟩⟩
    rw [wsReply_loses host socket (some req) memory passed long, release, cassert_ndebug,
      Exec.ok_bind, reply_refuses uuidText socket none (.inr (.inl rfl))]
    rfl

/-- A WebSocket reply that does not stop has sent its frame exactly when it could
be delivered. -/
theorem wsReply_sent_iff (goes : ¬ Stops host (dataBytes data) socket req) :
    ∃ after, mongrel2WsReply host socket (some req) data = .ok (0, after) ∧
      (Sent req (textBytes host (dataBytes data)) socket after ↔
        Deliverable socket req (textBytes host (dataBytes data)).length) := by
  obtain ⟨after, uuid, returned, uuidText, ⟨s, rfl, fits, rfl⟩ | ⟨rfl, unfit⟩⟩ :=
    wsReply_goes host data memory goes
  · refine ⟨_, returned, (sent_push_iff uuidText s _).trans ?_⟩
    constructor
    · rintro ⟨next, connId, canonical⟩
      exact ⟨s, uuid, connId, rfl, next, canonical, fits⟩
    · rintro ⟨t, text, connId, same, next, canonical, -⟩
      cases same
      have texts := uuidText.symm.trans canonical.uuidText
      cases texts
      exact ⟨next, connId, canonical⟩
  · refine ⟨_, returned, fun sent => absurd sent not_sent_unchanged, ?_⟩
    rintro ⟨t, text, connId, -, -, canonical, fits⟩
    have texts := uuidText.symm.trans canonical.uuidText
    cases texts
    exact absurd fits unfit

end WsReplies

/-- A deliverable frame does not stop the reply. -/
theorem not_stops_of_deliverable {host : Host} {data : Bytes} {more : Nat}
    {socket : Option Mongrel2Socket} {req : Mongrel2Request}
    (deliverable : FrameDeliverable host data more socket req) :
    ¬ Stops host data socket req := by
  obtain ⟨-, passed, s, uuid, connId, rfl, -, canonical, head, total⟩ := deliverable
  rintro (unprinted | equal | ⟨-, long⟩ | nameless | ⟨text, textEq, -, whole⟩)
  · exact unprinted passed
  · omega
  · omega
  · rw [canonical.uuidText] at nameless
    cases nameless
  · cases canonical.uuidText.symm.trans textEq
    obtain longest | ⟨-, impossible⟩ := whole
    · omega
    · cases impossible

theorem stops_of_asserts {host : Host} {data : Bytes} {socket : Option Mongrel2Socket}
    {req : Mongrel2Request} (asserts : Asserts host data) : Stops host data socket req := by
  obtain ⟨debug, empty | ⟨-, long⟩⟩ := asserts
  · refine .inl ?_
    rintro (ndebug | ⟨nonempty, -⟩)
    · rw [ndebug] at debug
      cases debug
    · exact nonempty empty
  · exact .inr (.inr (.inl ⟨debug, long⟩))

theorem wsReply_honest_iff (host : Host) (socket : Option Mongrel2Socket)
    (req : Option Mongrel2Request) (data : Option Bstring) :
    Honest (mongrel2WsReply host socket req data) req (textBytes host (dataBytes data)) socket ↔
      hasMemory host (dataBytes data) = false ∨ Asserts host (dataBytes data) ∨
        ∃ r, req = some r ∧ FrameDeliverable host (dataBytes data) 0 socket r := by
  by_cases memory : hasMemory host (dataBytes data) = true
  · have refused : ¬ hasMemory host (dataBytes data) = false := by rw [memory]; decide
    rw [or_iff_right refused]
    by_cases asserts : Asserts host (dataBytes data)
    · rw [wsReply_asserts host data memory req asserts, Honest, reports_error]
      exact iff_of_true rfl (.inl asserts)
    · rw [or_iff_right asserts]
      cases req with
      | none =>
          obtain ⟨fault, stopped, other⟩ :=
            wsReply_no_request host data socket memory asserts
          rw [stopped, Honest, reports_error]
          refine iff_of_false other ?_
          rintro ⟨r, impossible, -⟩
          cases impossible
      | some r =>
          by_cases stops : Stops host (dataBytes data) socket r
          · obtain ⟨fault, stopped, asserted⟩ := wsReply_ends host data memory stops
            rw [stopped, Honest, reports_error, asserted]
            refine iff_of_false asserts ?_
            rintro ⟨other, same, deliverable⟩
            cases same
            exact not_stops_of_deliverable deliverable stops
          · obtain ⟨after, returned, sent_iff⟩ := wsReply_sent_iff host data memory stops
            have passed : passesDebug host (dataBytes data) := not_not.mp fun unprinted =>
              stops (.inl unprinted)
            rw [returned, Honest, reports_ok]
            constructor
            · intro honest
              obtain ⟨other, same, sent⟩ := honest rfl
              cases same
              exact ⟨r, rfl, memory, passed, sent_iff.mp sent⟩
            · rintro ⟨other, same, -, -, deliverable⟩ -
              cases same
              exact ⟨r, rfl, sent_iff.mpr deliverable⟩
  · have refused : hasMemory host (dataBytes data) = false := Bool.eq_false_iff.mpr memory
    rw [wsReply_no_memory host socket req refused, Honest, reports_ok]
    exact iff_of_true (fun impossible => by cases impossible) (.inl refused)

end M2Handler.Reporting

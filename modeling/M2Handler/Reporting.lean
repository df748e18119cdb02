import M2Handler.Reporting.Broadcast
import M2Handler.Reporting.Handshake

/-!
# Reporting

Most callers do not look at the answer of the function below them, so each send
path is honest under a condition of its own.
-/

namespace M2Handler.Reporting

open Machine Text Bstr Handler Websocket Delivery

/-- When each send path returns `0` only after its whole message was accepted. -/
theorem reports_sent_iff (host : Host) (libraries : Libraries) (socket : Option Mongrel2Socket)
    (req : Option Mongrel2Request) (payload headers body data : Option Bstring) :
    (Honest (mongrel2Reply socket req payload) req (dataBytes payload) socket ↔
      ∃ r uuid, req = some r ∧ bdata r.uuid = some uuid ∧
        ∀ p, payload = some p → Settles socket r p.data.length) ∧
    (Honest (mongrel2ReplyHttp socket req headers body) req
        (dataBytes headers ++ SEPERATOR.data ++ dataBytes body) socket ↔
      ∃ r uuid, req = some r ∧ bdata r.uuid = some uuid ∧
        ∀ h, headers = some h →
          SettlesHttp socket r uuid h.data.length (dataBytes body).length) ∧
    (Honest (mongrel2Disconnect socket req) req [] socket ↔
      ∀ r s, req = some r → socket = some s → Settles socket r 0) ∧
    (Honest (mongrel2WsReply host socket req data) req (textBytes host (dataBytes data)) socket ↔
      hasMemory host (dataBytes data) = false ∨ Asserts host (dataBytes data) ∨
        ∃ r, req = some r ∧ FrameDeliverable host (dataBytes data) 0 socket r) ∧
    (UpgradeHonest libraries socket (mongrel2WsReplyUpgrade libraries req socket) req ↔
      ∃ r, req = some r ∧ UsableKey libraries r ∧ Deliverable socket r 129) ∧
    ∀ (state : Session.M2WsSessionsState) (tree : RedBlack.Tree (Nat × Session.M2WsSessionId)),
      state.locked = false → Session.Stores state.dict tree →
        (BroadcastHonest (Session.mongrel2WsBroadcast host socket data state)
            (Session.requests tree) (textBytes host (dataBytes data)) socket ↔
          (hasMemory host (dataBytes data) = true ∧ Asserts host (dataBytes data)) ∨
            AllDeliverable host data socket (Session.requests tree)) :=
  ⟨reply_honest_iff socket req payload, replyHttp_honest_iff socket req headers body,
    disconnect_honest_iff socket req, wsReply_honest_iff host socket req data,
    upgrade_honest_iff libraries socket req,
    fun _ _ free stores => broadcast_honest_iff host socket data free stores⟩

def keyedSeven : Mongrel2Request := requestWithKey (asciiBytes "dGhlIHNhbXBsZSBub25jZQ==")

theorem canonical_keyedSeven : Canonical keyedSeven [117] [55] := ⟨rfl, by decide, rfl, by decide⟩

theorem deliverable_keyedSeven {length : Nat} (fits : length < 1000) :
    Deliverable (some openSocket) keyedSeven length := by
  have size : (envelope [117] [55]).length = 7 := by decide
  refine ⟨openSocket, _, _, rfl, rfl, canonical_keyedSeven, ?_⟩
  rw [responseHead_canonical canonical_keyedSeven, size]
  exact ⟨by decide, by omega⟩

/-- Every path on an open socket, and a broadcast to two parsed requests. -/
theorem reports_sent_iff_seven :
    Honest (mongrel2Reply (some openSocket) (some keyedSeven) (some greeting)) (some keyedSeven)
        [104, 105] (some openSocket) ∧
      Honest (mongrel2ReplyHttp (some openSocket) (some keyedSeven) (some greeting)
        (some greeting)) (some keyedSeven) [104, 105, 13, 10, 13, 10, 104, 105]
          (some openSocket) ∧
      Honest (mongrel2Disconnect (some openSocket) (some keyedSeven)) (some keyedSeven) []
        (some openSocket) ∧
      Honest (mongrel2WsReply linuxHost (some openSocket) (some keyedSeven) (some greeting))
        (some keyedSeven) (textBytes linuxHost [104, 105]) (some openSocket) ∧
      UpgradeHonest sampleLibraries (some openSocket)
        (mongrel2WsReplyUpgrade sampleLibraries (some keyedSeven) (some openSocket))
          (some keyedSeven) ∧
      ∃ first second answers state tree,
        Session.sessionRun [.add first, .add second] = .ok (answers, state) ∧
        first ∈ Session.requests tree ∧ second ∈ Session.requests tree ∧
        BroadcastHonest (Session.mongrel2WsBroadcast linuxHost (some openSocket) (some greeting)
          state) (Session.requests tree) (textBytes linuxHost [104, 105]) (some openSocket) := by
  obtain ⟨reply, http, disconnect, wsReply, upgrade, broadcast⟩ := reports_sent_iff linuxHost
    sampleLibraries (some openSocket) (some keyedSeven) (some greeting) (some greeting)
      (some greeting) (some greeting)
  have settles {length : Nat} (fits : length < 1000) : Settles (some openSocket) keyedSeven length :=
    ⟨_, canonical_keyedSeven.uuidText, .inr (deliverable_keyedSeven fits)⟩
  refine ⟨reply.mpr ⟨_, _, rfl, canonical_keyedSeven.uuidText, ?_⟩,
    http.mpr ⟨_, _, rfl, canonical_keyedSeven.uuidText, ?_⟩, disconnect.mpr ?_,
    wsReply.mpr (.inr (.inr ⟨_, rfl, rfl, .inl rfl, deliverable_keyedSeven ?_⟩)),
    upgrade.mpr ⟨_, rfl, ⟨asciiBytes "dGhlIHNhbXBsZSBub25jZQ==", ?_, by decide⟩,
      deliverable_keyedSeven (by decide)⟩, ?_⟩
  · intro p same
    cases same
    exact settles (by decide)
  · intro h same
    cases same
    exact ⟨⟨by decide, by decide, by decide, by decide⟩, .inl ⟨by decide, settles (by decide)⟩⟩
  · intro r s sameRequest sameSocket
    cases sameRequest
    cases sameSocket
    exact settles (by decide)
  · rw [length_textBytes]
    decide
  · exact keyOf_of_mapsKey sampleLibraries (mapsKey_requestWithKey _ _) (by decide)
  · obtain ⟨first, second, -, -, canonicalFirst, canonicalSecond, inTurn, live_iff⟩ :=
      exists_twoSessions
    obtain ⟨answers, state, ran, free, tree, stores, enrols⟩ := Session.run_records inTurn
    have only {req : Mongrel2Request} :
        req ∈ Session.requests tree ↔ req = first ∨ req = second :=
      (enrols.live req).trans (live_iff req)
    refine ⟨first, second, answers, state, tree, ran, only.mpr (.inl rfl), only.mpr (.inr rfl),
      (broadcast state tree free stores).mpr (.inr fun i r found => ?_)⟩
    exact deliverable_twoSessions canonicalFirst canonicalSecond
      (only.mp (List.mem_of_getElem? found)) i

def closedSocket : Mongrel2Socket := ⟨fun _ => false, []⟩

/-- A refused message and an answer without a key are reported as sent. -/
theorem reports_unsent :
    (∃ after, mongrel2Reply (some closedSocket) (some requestSeven) (some greeting) =
        .ok (0, after) ∧ ¬ Sent requestSeven [104, 105] (some closedSocket) after) ∧
      ∃ after final, mongrel2WsReplyUpgrade sampleLibraries (some requestSeven)
        (some openSocket) = .ok (0, after, final) ∧ after = some openSocket := by
  have head : responseHead requestSeven [117] = envelope [117] [55] :=
    responseHead_canonical canonical_requestSeven
  have size : (envelope [117] [55]).length = 7 := by decide
  constructor
  · refine ⟨_, reply_sends uuid_requestSeven closedSocket greeting (by rw [head, size]; decide)
      (by rw [head, size]; decide), ?_⟩
    intro sent
    have accepted := ((sent_push_iff uuid_requestSeven closedSocket greeting.data).mp sent).1
    cases accepted
  · have missing : keyOf sampleLibraries requestSeven = none := rfl
    have refused : KeyRefused (keyOf sampleLibraries requestSeven) := by
      rw [missing]
      trivial
    have replies := upgrade_replies sampleLibraries (some openSocket) requestSeven
      (upgradeHeaders_refuses refused)
    have text := (withHeaders_uuid sampleLibraries requestSeven).trans uuid_requestSeven
    have nothing := reply_refuses text (some openSocket) none (.inr (.inl rfl))
    exact ⟨_, _, replies.trans (by rw [nothing]; rfl), rfl⟩

end M2Handler.Reporting

import M2Handler.Reporting.WsReply
import M2Handler.Websocket.Handshake

/-!
# Reported handshakes

An answer to a handshake needs a key that fits in a block with the GUID.  Without
one the reply is refused, and `mongrel2_ws_reply_upgrade` returns `0` all the same.
-/

namespace M2Handler.Reporting

open Machine Text Bstr Handler Websocket Delivery

section Upgrade

variable (libraries : Libraries) (socket : Option Mongrel2Socket) (req : Mongrel2Request)

/-- A lookup changes the parsed headers only. -/
theorem withHeaders_eq : ∃ headers, withHeaders libraries req = { req with headers } := by
  unfold withHeaders mongrel2ParseHeaders
  cases parsed : req.headers with
  | some value => exact ⟨req.headers, rfl⟩
  | none =>
      cases (bdata req.rawHeaders).bind fun text => libraries.jsonLoads (cString text) with
      | none => exact ⟨none, rfl⟩
      | some value => cases value <;> exact ⟨_, rfl⟩

theorem withHeaders_uuid : bdata (withHeaders libraries req).uuid = bdata req.uuid := by
  obtain ⟨headers, same⟩ := withHeaders_eq libraries req
  rw [same]

theorem withHeaders_responseHead (uuid : Bytes) :
    responseHead (withHeaders libraries req) uuid = responseHead req uuid := by
  obtain ⟨headers, same⟩ := withHeaders_eq libraries req
  rw [same]
  rfl

/-- A bstring holds the key with the GUID. -/
def UsableKey : Prop := ∃ key, keyOf libraries req = some key ∧ key.length + 36 < 2147483647

/-- A handshake stops past the block of the key, or at a null pointer of the
reply. -/
def UpgradeStops : Prop :=
  (∃ key, keyOf libraries req = some key ∧ KeyWraps key) ∨ bdata req.uuid = none ∨
    (UsableKey libraries req ∧ socket = none ∧
      ∃ uuid, bdata req.uuid = some uuid ∧ (responseHead req uuid).length ≤ 1073741822)

/-- A handshake that returns `0` has sent its answer. -/
def UpgradeHonest (run : Exec (Int × Option Mongrel2Socket × Mongrel2Request))
    (req : Option Mongrel2Request) : Prop :=
  Reports run fun result => result.1 = 0 → ∃ r key, req = some r ∧
    keyOf libraries r = some key ∧ Sent r (upgradeText (acceptOf libraries key)) socket result.2.1

theorem length_upgradeText (key : Bytes) :
    (upgradeText (acceptOf libraries key)).length = 129 := by
  have head : upgradeHead.length = 97 := rfl
  rw [upgradeText, List.length_append, List.length_append, head, length_acceptOf]
  rfl

/-- The reply to a handshake whose headers these are. -/
theorem upgrade_replies {headers : Option Bstring}
    (answered : mongrel2WsUpgradeHeaders libraries req =
      .ok (headers, withHeaders libraries req)) :
    mongrel2WsReplyUpgrade libraries (some req) socket =
      (mongrel2Reply socket (some (withHeaders libraries req)) headers >>= fun result =>
        .ok (0, result.2, withHeaders libraries req)) := by
  rw [mongrel2WsReplyUpgrade, deref_some, Exec.ok_bind, answered]
  rfl

theorem keyRefused_of_unusable (unusable : ¬ UsableKey libraries req)
    (fits : ∀ key, keyOf libraries req = some key → ¬ KeyWraps key) :
    KeyRefused (keyOf libraries req) := by
  cases found : keyOf libraries req with
  | none => trivial
  | some key => exact ⟨by_contra fun short => unusable ⟨key, found, by omega⟩, fits key found⟩

/-- A handshake that does not stop has sent its answer exactly when there is one
and it could be delivered. -/
theorem upgrade_sent_iff (goes : ¬ UpgradeStops libraries socket req) :
    ∃ after final, mongrel2WsReplyUpgrade libraries (some req) socket = .ok (0, after, final) ∧
      ((∃ key, keyOf libraries req = some key ∧
          Sent req (upgradeText (acceptOf libraries key)) socket after) ↔
        UsableKey libraries req ∧ Deliverable socket req 129) := by
  simp only [UpgradeStops, not_or] at goes
  obtain ⟨copied, named, reaches⟩ := goes
  obtain ⟨uuid, uuidText⟩ := Option.ne_none_iff_exists'.mp named
  have text := (withHeaders_uuid libraries req).trans uuidText
  have unsent (run : mongrel2WsReplyUpgrade libraries (some req) socket =
      .ok (0, socket, withHeaders libraries req))
      (not : ¬ (UsableKey libraries req ∧ Deliverable socket req 129)) :
      ∃ after final, mongrel2WsReplyUpgrade libraries (some req) socket = .ok (0, after, final) ∧
        ((∃ key, keyOf libraries req = some key ∧
            Sent req (upgradeText (acceptOf libraries key)) socket after) ↔
          UsableKey libraries req ∧ Deliverable socket req 129) := by
    refine ⟨_, _, run, ?_, fun both => absurd both not⟩
    rintro ⟨key, -, sent⟩
    exact absurd sent not_sent_unchanged
  by_cases usable : UsableKey libraries req
  · obtain ⟨key, found, fits⟩ := usable
    obtain ⟨headers, -, bytes, answered⟩ := upgradeHeaders_eq found fits
    have length := length_upgradeText libraries key
    rw [← bytes] at length
    have replies := upgrade_replies libraries socket req answered
    by_cases head : (responseHead req uuid).length ≤ 1073741822
    · cases socket with
      | none => exact absurd ⟨⟨key, found, fits⟩, rfl, uuid, uuidText, head⟩ reaches
      | some s =>
          have sends := reply_sends text s headers
            (by rw [withHeaders_responseHead]; exact head)
            (by rw [withHeaders_responseHead, length]; omega)
          rw [withHeaders_responseHead, bytes] at sends
          refine ⟨_, _, replies.trans (by rw [sends]; rfl), ?_⟩
          constructor
          · rintro ⟨other, same, sent⟩
            rw [found] at same
            cases same
            obtain ⟨next, connId, canonical⟩ := (sent_push_iff uuidText s _).mp sent
            exact ⟨⟨key, found, fits⟩, s, uuid, connId, rfl, next, canonical, head, by omega⟩
          · rintro ⟨-, t, other, connId, same, next, canonical, -⟩
            cases same
            cases uuidText.symm.trans canonical.uuidText
            exact ⟨key, found, (sent_push_iff uuidText s _).mpr ⟨next, connId, canonical⟩⟩
    · have refused := reply_refuses text socket (some headers)
        (.inl (by rw [withHeaders_responseHead]; omega))
      refine unsent (replies.trans (by rw [refused]; rfl)) ?_
      rintro ⟨-, t, other, connId, -, -, canonical, short, -⟩
      cases uuidText.symm.trans canonical.uuidText
      exact head short
  · have refused := keyRefused_of_unusable libraries req usable
      fun key found wraps => copied ⟨key, found, wraps⟩
    have replies := upgrade_replies libraries socket req (upgradeHeaders_refuses refused)
    have nothing := reply_refuses text socket none (.inr (.inl rfl))
    exact unsent (replies.trans (by rw [nothing]; rfl)) fun both => usable both.1

/-- A handshake has no assertion to stop in. -/
theorem upgrade_ends (stops : UpgradeStops libraries socket req) :
    ∃ fault, mongrel2WsReplyUpgrade libraries (some req) socket = .error fault ∧
      fault ≠ .assertion := by
  have overrun {key : Bytes} (found : keyOf libraries req = some key) (wraps : KeyWraps key) :
      ∃ fault, mongrel2WsReplyUpgrade libraries (some req) socket = .error fault ∧
        fault ≠ .assertion := by
    refine ⟨.outOfBounds, ?_, by decide⟩
    rw [mongrel2WsReplyUpgrade, deref_some, Exec.ok_bind, upgradeHeaders_overruns found wraps]
    rfl
  obtain ⟨key, found, wraps⟩ | nameless | ⟨⟨key, found, fits⟩, rfl, uuid, uuidText, head⟩ := stops
  · exact overrun found wraps
  · have absent := (withHeaders_uuid libraries req).trans nameless
    by_cases copied : ∀ key, keyOf libraries req = some key → ¬ KeyWraps key
    · have answered : ∃ headers, mongrel2WsUpgradeHeaders libraries req =
          .ok (headers, withHeaders libraries req) := by
        by_cases usable : UsableKey libraries req
        · obtain ⟨key, found, fits⟩ := usable
          obtain ⟨headers, -, -, answered⟩ := upgradeHeaders_eq found fits
          exact ⟨_, answered⟩
        · exact ⟨_, upgradeHeaders_refuses (keyRefused_of_unusable libraries req usable copied)⟩
      obtain ⟨headers, answered⟩ := answered
      rw [upgrade_replies libraries socket req answered, reply_no_uuid absent]
      exact ⟨.nullPointer, rfl, by decide⟩
    · simp only [not_forall, not_not] at copied
      obtain ⟨key, found, wraps⟩ := copied
      exact overrun found wraps
  · obtain ⟨headers, -, bytes, answered⟩ := upgradeHeaders_eq found fits
    have length := length_upgradeText libraries key
    rw [← bytes] at length
    have text := (withHeaders_uuid libraries req).trans uuidText
    rw [upgrade_replies libraries none req answered, reply_no_socket text headers
      (by rw [withHeaders_responseHead]; exact head)
      (by rw [withHeaders_responseHead, length]; omega)]
    exact ⟨.nullPointer, rfl, by decide⟩

end Upgrade

/-- A usable key and a deliverable answer do not stop the handshake. -/
theorem not_upgradeStops {libraries : Libraries} {socket : Option Mongrel2Socket}
    {req : Mongrel2Request} (usable : UsableKey libraries req)
    (deliverable : Deliverable socket req 129) : ¬ UpgradeStops libraries socket req := by
  obtain ⟨key, found, fits⟩ := usable
  obtain ⟨s, uuid, connId, rfl, -, canonical, -⟩ := deliverable
  rintro (⟨other, foundOther, wraps⟩ | nameless | ⟨-, impossible, -⟩)
  · cases found.symm.trans foundOther
    unfold KeyWraps at wraps
    omega
  · rw [canonical.uuidText] at nameless
    cases nameless
  · cases impossible

theorem upgrade_honest_iff (libraries : Libraries) (socket : Option Mongrel2Socket)
    (req : Option Mongrel2Request) :
    UpgradeHonest libraries socket (mongrel2WsReplyUpgrade libraries req socket) req ↔
      ∃ r, req = some r ∧ UsableKey libraries r ∧ Deliverable socket r 129 := by
  cases req with
  | none =>
      rw [mongrel2WsReplyUpgrade, deref_none, Exec.error_bind, UpgradeHonest, reports_error]
      refine iff_of_false (by decide) ?_
      rintro ⟨r, impossible, -⟩
      cases impossible
  | some r =>
      by_cases stops : UpgradeStops libraries socket r
      · obtain ⟨fault, stopped, other⟩ := upgrade_ends libraries socket r stops
        rw [stopped, UpgradeHonest, reports_error]
        refine iff_of_false other ?_
        rintro ⟨same, sameEq, usable, deliverable⟩
        cases sameEq
        exact not_upgradeStops usable deliverable stops
      · obtain ⟨after, final, returned, sent_iff⟩ := upgrade_sent_iff libraries socket r stops
        rw [returned, UpgradeHonest, reports_ok]
        constructor
        · intro honest
          obtain ⟨other, key, same, found, sent⟩ := honest rfl
          cases same
          exact ⟨r, rfl, sent_iff.mp ⟨key, found, sent⟩⟩
        · rintro ⟨other, same, deliverable⟩ -
          cases same
          obtain ⟨key, found, sent⟩ := sent_iff.mpr deliverable
          exact ⟨r, key, rfl, found, sent⟩

end M2Handler.Reporting

import M2Handler.Delivery

/-!
# Reported replies

A send path is honest when it returns `0` only after one message with the
complete envelope and payload was accepted.  `mongrel2_send` does not look at the
answer of `zmq_sendmsg`, so a reply is honest only where the socket accepts it.
-/

namespace M2Handler.Reporting

open Machine Text Bstr Handler Websocket Delivery

/-- One message with the complete envelope of the request and this payload was
accepted. -/
def Sent (req : Mongrel2Request) (payload : Bytes) (before after : Option Mongrel2Socket) : Prop :=
  ∃ socket uuid connId, before = some socket ∧ socket.next = true ∧ bdata req.uuid = some uuid ∧
    bdata req.connIdBstr = some connId ∧ after = some (socket.push (envelope uuid connId ++ payload))

/-- A run stops in a failed assertion, or it returns something truthful.  The C code may go on
behind any other fault, so a run that ends in one reports nothing. -/
def Reports {α : Type} (run : Exec α) (truthful : α → Prop) : Prop :=
  run = .error .assertion ∨ ∃ result, run = .ok result ∧ truthful result

/-- A run that returns `0` has sent the payload. -/
def Honest (run : Exec (Int × Option Mongrel2Socket)) (req : Option Mongrel2Request)
    (payload : Bytes) (before : Option Mongrel2Socket) : Prop :=
  Reports run fun result => result.1 = 0 → ∃ r, req = some r ∧ Sent r payload before result.2

/-- `mongrel2_reply` answers `-1` to messages of this size. -/
def Refused (head payload : Nat) : Prop := 1073741822 < head ∨ 2147483647 < head + payload

/-- After some more messages, a socket accepts one of this many payload bytes from
a request that prints its own envelope. -/
def DeliverableAfter (more : Nat) (socket : Option Mongrel2Socket) (req : Mongrel2Request)
    (length : Nat) : Prop :=
  ∃ s uuid connId, socket = some s ∧ s.accepts (s.calls.length + more) = true ∧
    Canonical req uuid connId ∧ Fits (responseHead req uuid).length length

def Deliverable : Option Mongrel2Socket → Mongrel2Request → Nat → Prop := DeliverableAfter 0

/-- A request whose message of this many payload bytes is refused or delivered. -/
def Settles (socket : Option Mongrel2Socket) (req : Mongrel2Request) (length : Nat) : Prop :=
  ∃ uuid, bdata req.uuid = some uuid ∧
    (Refused (responseHead req uuid).length length ∨ Deliverable socket req length)

/-- No copy of an HTTP payload makes a block of exactly `INT_MAX` bytes. -/
def Copies (headers body : Nat) : Prop :=
  headers ≠ 2147483647 ∧ headers + 4 ≠ 2147483647 ∧ headers + 4 + body ≠ 2147483647 ∧
    (2147483647 < headers + 4 → headers + body ≠ 2147483647)

theorem reports_ok {α : Type} (result : α) (truthful : α → Prop) :
    Reports (.ok result) truthful ↔ truthful result := by
  constructor
  · rintro (impossible | ⟨other, same, truth⟩)
    · cases impossible
    · cases same
      exact truth
  · exact fun truth => .inr ⟨result, rfl, truth⟩

theorem reports_error {α : Type} (fault : Fault) (truthful : α → Prop) :
    Reports (.error fault : Exec α) truthful ↔ fault = .assertion := by
  constructor
  · rintro (same | ⟨_, impossible, -⟩)
    · exact Except.error.inj same
    · cases impossible
  · rintro rfl
    exact .inl rfl

/-! ## The message of a reply -/

/-- A formatted header that is the complete envelope comes from a canonical
request. -/
theorem canonical_of_envelope {req : Mongrel2Request} {uuid connId : Bytes}
    (uuidText : bdata req.uuid = some uuid) (connIdText : bdata req.connIdBstr = some connId)
    (same : responseHead req uuid = envelope uuid connId) : Canonical req uuid connId := by
  have width := blength_of_bdata uuidText
  have length := blength_of_bdata connIdText
  have short := length_cString_le uuid
  have field : (padLeft (blength req.uuid) (cString uuid)).length = uuid.length := by
    rw [padLeft, width, Int.toNat_natCast, List.length_append, List.length_replicate]
    omega
  obtain ⟨padded, rest⟩ := List.append_inj same field
  have nulFree : Absent 0 uuid := by
    intro byte member
    rw [← padded] at member
    rcases List.mem_append.mp member with blank | text
    · rw [List.eq_of_mem_replicate blank]
      decide
    · exact cString_nulFree uuid byte text
  refine ⟨uuidText, nulFree, connIdText, ?_⟩
  rw [length, printInt_of_nat, List.cons.injEq] at rest
  have colon := List.append_cancel_left rest.2
  rw [List.cons.injEq] at colon
  exact (List.append_cancel_right colon.2).symm

theorem push_injective {socket : Mongrel2Socket} {first second : Bytes}
    (same : socket.push first = socket.push second) : first = second := by
  have calls := List.append_cancel_left (congrArg Mongrel2Socket.calls same)
  simpa using calls

/-- What `mongrel2_reply` hands over is accepted exactly when the socket accepts
it and the request is canonical. -/
theorem sent_push_iff {req : Mongrel2Request} {uuid : Bytes} (uuidText : bdata req.uuid = some uuid)
    (socket : Mongrel2Socket) (payload : Bytes) :
    Sent req payload (some socket) (some (socket.push (responseHead req uuid ++ payload))) ↔
      socket.next = true ∧ ∃ connId, Canonical req uuid connId := by
  constructor
  · rintro ⟨s, text, connId, before, next, textEq, connIdText, after⟩
    cases before
    rw [uuidText] at textEq
    cases textEq
    have message := push_injective (Option.some.inj after)
    exact ⟨next, connId, canonical_of_envelope uuidText connIdText
      (List.append_cancel_right message)⟩
  · rintro ⟨next, connId, canonical⟩
    refine ⟨socket, uuid, connId, rfl, next, uuidText, canonical.connIdText, ?_⟩
    rw [responseHead_canonical canonical]

theorem not_sent_unchanged {req : Mongrel2Request} {payload : Bytes}
    {socket : Option Mongrel2Socket} : ¬ Sent req payload socket socket := by
  rintro ⟨s, uuid, connId, rfl, -, -, -, after⟩
  exact not_handed (congrArg Mongrel2Socket.calls (Option.some.inj after))

theorem fits_of_not_refused {head payload : Nat} (accepted : ¬ Refused head payload)
    (other : head + payload ≠ 2147483647) : Fits head payload := by
  unfold Refused at accepted
  unfold Fits
  omega

theorem deliverable_some_iff {s : Mongrel2Socket} {req : Mongrel2Request} {uuid : Bytes}
    (uuidText : bdata req.uuid = some uuid) {length : Nat} :
    Deliverable (some s) req length ↔
      (s.next = true ∧ ∃ connId, Canonical req uuid connId) ∧
        Fits (responseHead req uuid).length length := by
  constructor
  · rintro ⟨t, text, connId, same, next, canonical, fits⟩
    cases same
    cases uuidText.symm.trans canonical.uuidText
    exact ⟨⟨next, connId, canonical⟩, fits⟩
  · rintro ⟨⟨next, connId, canonical⟩, fits⟩
    exact ⟨s, uuid, connId, rfl, next, canonical, fits⟩

theorem settles_iff {socket : Option Mongrel2Socket} {req : Mongrel2Request} {uuid : Bytes}
    (uuidText : bdata req.uuid = some uuid) {length : Nat} :
    Settles socket req length ↔
      Refused (responseHead req uuid).length length ∨ Deliverable socket req length := by
  constructor
  · rintro ⟨text, textEq, settled⟩
    cases uuidText.symm.trans textEq
    exact settled
  · exact fun settled => ⟨uuid, uuidText, settled⟩

/-! ## Replies -/

section Replies

variable (socket : Option Mongrel2Socket) (req : Option Mongrel2Request)

/-- What a reply hands over is truthful when it is the intended payload. -/
theorem reply_settles_iff {r : Mongrel2Request} (p : Bstring) :
    Honest (mongrel2Reply socket (some r) (some p)) (some r) p.data socket ↔
      Settles socket r p.data.length := by
  cases uuidText : bdata r.uuid with
  | none =>
      rw [reply_no_uuid uuidText, Honest, reports_error]
      refine iff_of_false (by decide) ?_
      rintro ⟨uuid, text, -⟩
      cases uuidText.symm.trans text
  | some uuid =>
      rw [settles_iff uuidText]
      by_cases refused : Refused (responseHead r uuid).length p.data.length
      · rw [reply_refuses uuidText socket (some p) (refused.imp_right fun long => .inr ⟨p, rfl, long⟩),
          Honest, reports_ok]
        exact iff_of_true (fun impossible => by cases impossible) (.inl refused)
      · rw [or_iff_right refused]
        by_cases longest : (responseHead r uuid).length + p.data.length = 2147483647
        · have short : (responseHead r uuid).length ≤ 1073741822 := by
            unfold Refused at refused
            omega
          rw [reply_overruns uuidText socket p short longest, Honest, reports_error]
          refine iff_of_false (by decide) ?_
          rintro ⟨s, text, connId, -, -, canonical, -, fits⟩
          cases uuidText.symm.trans canonical.uuidText
          omega
        · have fits := fits_of_not_refused refused longest
          cases socket with
          | none =>
              rw [reply_no_socket uuidText p fits.1 fits.2, Honest, reports_error]
              refine iff_of_false (by decide) ?_
              rintro ⟨s, text, connId, impossible, -⟩
              cases impossible
          | some s =>
              rw [reply_sends uuidText s p fits.1 fits.2, Honest, reports_ok,
                deliverable_some_iff uuidText, and_iff_left fits, ← sent_push_iff uuidText s p.data]
              simp

/-- A null payload is refused by every request with a `uuid`. -/
theorem reply_null_iff {r : Mongrel2Request} (payload : Bytes) :
    Honest (mongrel2Reply socket (some r) none) (some r) payload socket ↔
      ∃ uuid, bdata r.uuid = some uuid := by
  cases uuidText : bdata r.uuid with
  | none =>
      rw [reply_no_uuid uuidText, Honest, reports_error]
      refine iff_of_false (by decide) ?_
      rintro ⟨uuid, impossible⟩
      cases impossible
  | some uuid =>
      rw [reply_refuses uuidText socket none (.inr (.inl rfl)), Honest, reports_ok]
      exact iff_of_true (fun impossible => by cases impossible) ⟨uuid, rfl⟩

theorem reply_honest_iff (payload : Option Bstring) :
    Honest (mongrel2Reply socket req payload) req (dataBytes payload) socket ↔
      ∃ r uuid, req = some r ∧ bdata r.uuid = some uuid ∧
        ∀ p, payload = some p → Settles socket r p.data.length := by
  cases req with
  | none =>
      rw [mongrel2Reply, deref_none, Exec.error_bind, Honest, reports_error]
      refine iff_of_false (by decide) ?_
      rintro ⟨r, uuid, impossible, -⟩
      cases impossible
  | some r =>
      cases payload with
      | none =>
          rw [reply_null_iff socket]
          constructor
          · rintro ⟨uuid, uuidText⟩
            exact ⟨r, uuid, rfl, uuidText, fun p impossible => by cases impossible⟩
          · rintro ⟨other, uuid, same, uuidText, -⟩
            cases same
            exact ⟨uuid, uuidText⟩
      | some p =>
          have bytes : dataBytes (some p) = p.data := rfl
          rw [bytes, reply_settles_iff socket p]
          constructor
          · rintro ⟨uuid, uuidText, settled⟩
            exact ⟨r, uuid, rfl, uuidText, fun q same => by cases same; exact ⟨uuid, uuidText, settled⟩⟩
          · rintro ⟨other, uuid, same, -, settles⟩
            cases same
            exact settles p rfl

theorem disconnect_honest_iff :
    Honest (mongrel2Disconnect socket req) req [] socket ↔
      ∀ r s, req = some r → socket = some s → Settles socket r 0 := by
  obtain ⟨close, made, -, bytes⟩ := bfromcstr_empty
  cases req with
  | none =>
      have answered : mongrel2Disconnect socket none = .ok (-1, socket) := rfl
      rw [answered, Honest, reports_ok]
      exact iff_of_true (fun impossible => by cases impossible)
        fun r s impossible => by cases impossible
  | some r =>
      cases socket with
      | none =>
          have answered : mongrel2Disconnect none (some r) = .ok (-1, none) := rfl
          rw [answered, Honest, reports_ok]
          exact iff_of_true (fun impossible => by cases impossible)
            fun r s _ impossible => by cases impossible
      | some s =>
          have replies : mongrel2Disconnect (some s) (some r) =
              mongrel2Reply (some s) (some r) (some close) := by
            rw [mongrel2Disconnect, if_neg (by simp), if_neg (by simp), made, Exec.ok_bind]
          have honest := reply_settles_iff (some s) (r := r) close
          rw [bytes, ← replies] at honest
          rw [honest]
          constructor
          · intro settles other t same sameSocket
            cases same
            exact settles
          · exact fun settles => settles r s rfl rfl

/-! ## HTTP replies -/

/-- The HTTP payload is complete while it fits. -/
theorem replyHttp_complete (headers : Bstring) (body : Option Bstring)
    (fits : headers.data.length + 4 + (dataBytes body).length < 2147483647) :
    ∃ payload : Bstring, payload.data = headers.data ++ SEPERATOR.data ++ dataBytes body ∧
      mongrel2ReplyHttp socket req (some headers) body = mongrel2Reply socket req (some payload) := by
  cases body with
  | some body => exact replyHttp_replies socket req headers body fits
  | none =>
      obtain ⟨headed, -, bytes, replies⟩ := replyHttp_headed socket req headers (by omega)
      refine ⟨headed, ?_, ?_⟩
      · rw [bytes]
        exact (List.append_nil _).symm
      · rw [replies]
        rfl

/-- A body that does not fit behind the headers is left out. -/
theorem replyHttp_truncated (headers body : Bstring)
    (fits : headers.data.length + 4 < 2147483647)
    (long : 2147483647 < headers.data.length + 4 + body.data.length) :
    ∃ payload : Bstring, payload.data = headers.data ++ SEPERATOR.data ∧
      mongrel2ReplyHttp socket req (some headers) (some body) =
        mongrel2Reply socket req (some payload) := by
  have four : SEPERATOR.data.length = 4 := rfl
  obtain ⟨headed, -, bytes, replies⟩ := replyHttp_headed socket req headers fits
  refine ⟨headed, bytes, ?_⟩
  rw [replies, bconcat_refuses body (by rw [bytes, List.length_append, four]; exact long),
    Exec.ok_bind]

/-- Headers without room for the separator make a payload that no message holds. -/
theorem replyHttp_crowded (headers : Bstring) (body : Option Bstring)
    (short : headers.data.length ≠ 2147483647) (crowded : 2147483647 < headers.data.length + 4)
    (kept : headers.data.length + (dataBytes body).length ≠ 2147483647) :
    ∃ payload : Bstring, headers.data.length ≤ payload.data.length ∧
      mongrel2ReplyHttp socket req (some headers) body = mongrel2Reply socket req (some payload) := by
  have four : SEPERATOR.data.length = 4 := rfl
  obtain ⟨copy, copied, owned, bytes⟩ := bstrcpy_eq headers (by have := headers.fits; omega)
  have refused : bconcat (some copy) (some SEPERATOR) = .ok (-1, some copy) :=
    bconcat_refuses SEPERATOR (by rw [bytes, four]; exact crowded)
  have replies : mongrel2ReplyHttp socket req (some headers) body =
      (bconcat (some copy) body >>= fun joined => mongrel2Reply socket req joined.2) := by
    rw [mongrel2ReplyHttp, copied, Exec.ok_bind, refused, Exec.ok_bind]
  cases body with
  | none => exact ⟨copy, by rw [bytes], replies⟩
  | some b =>
      have other : copy.data.length + b.data.length ≠ 2147483647 := by
        rw [bytes]
        exact kept
      obtain fits | longest | tooLong :=
        lt_trichotomy (copy.data.length + b.data.length) 2147483647
      · obtain ⟨joined, makes, -, whole⟩ := bconcat_eq owned b fits
        refine ⟨joined, ?_, by rw [replies, makes, Exec.ok_bind]⟩
        rw [whole, List.length_append, bytes]
        exact Nat.le_add_right _ _
      · exact absurd longest other
      · exact ⟨copy, by rw [bytes], by rw [replies, bconcat_refuses b tooLong, Exec.ok_bind]⟩

/-- A copy of exactly `INT_MAX` bytes is written past its block. -/
theorem replyHttp_overruns (headers : Bstring) (body : Option Bstring)
    (longest : ¬ Copies headers.data.length (dataBytes body).length) :
    mongrel2ReplyHttp socket req (some headers) body = .error .outOfBounds := by
  have four : SEPERATOR.data.length = 4 := rfl
  have fits := headers.fits
  by_cases whole : headers.data.length = 2147483647
  · rw [mongrel2ReplyHttp, bstrcpy_longest headers whole]
    rfl
  obtain ⟨copy, copied, owned, bytes⟩ := bstrcpy_eq headers (by omega)
  by_cases separated : headers.data.length + 4 = 2147483647
  · rw [mongrel2ReplyHttp, copied, Exec.ok_bind,
      bconcat_overruns owned SEPERATOR (by rw [bytes, four]; exact separated)]
    rfl
  cases body with
  | none =>
      have nothing : (dataBytes none).length = 0 := rfl
      rw [nothing] at longest
      unfold Copies at longest
      omega
  | some b =>
      have bodyLength : (dataBytes (some b)).length = b.data.length := rfl
      rw [bodyLength] at longest
      by_cases room : headers.data.length + 4 < 2147483647
      · obtain ⟨headed, headedOwned, headedBytes, replies⟩ := replyHttp_headed socket req headers room
        have total : headed.data.length + b.data.length = 2147483647 := by
          unfold Copies at longest
          rw [headedBytes, List.length_append, four]
          omega
        rw [replies, bconcat_overruns headedOwned b total]
        rfl
      · have total : copy.data.length + b.data.length = 2147483647 := by
          unfold Copies at longest
          rw [bytes]
          omega
        rw [mongrel2ReplyHttp, copied, Exec.ok_bind,
          bconcat_refuses SEPERATOR (by rw [bytes, four]; omega), Exec.ok_bind]
        dsimp only
        rw [bconcat_overruns owned b total]
        rfl

/-- A request whose HTTP message of these parts is refused or delivered.  A body that does not fit
behind the headers is left out, and then the message has to be refused. -/
def SettlesHttp (req : Mongrel2Request) (uuid : Bytes) (headers body : Nat) : Prop :=
  Copies headers body ∧
    (headers + 4 + body < 2147483647 ∧ Settles socket req (headers + 4 + body) ∨
      2147483647 < headers + 4 + body ∧ Refused (responseHead req uuid).length (headers + 4))

/-- Without its body the payload may not reach the socket. -/
theorem replyHttp_truncated_iff {r : Mongrel2Request} {uuid : Bytes}
    (uuidText : bdata r.uuid = some uuid) (h b : Bstring) (room : h.data.length + 4 < 2147483647)
    (long : 2147483647 < h.data.length + 4 + b.data.length) :
    Honest (mongrel2ReplyHttp socket (some r) (some h) (some b)) (some r)
        (dataBytes (some h) ++ SEPERATOR.data ++ dataBytes (some b)) socket ↔
      Refused (responseHead r uuid).length (h.data.length + 4) := by
  have four : SEPERATOR.data.length = 4 := rfl
  obtain ⟨payload, bytes, replies⟩ := replyHttp_truncated socket (some r) h b room long
  have length : payload.data.length = h.data.length + 4 := by
    rw [bytes, List.length_append, four]
  rw [replies, ← length]
  by_cases refused : Refused (responseHead r uuid).length payload.data.length
  · rw [reply_refuses uuidText socket _ (refused.imp_right fun more => .inr ⟨payload, rfl, more⟩),
      Honest, reports_ok]
    exact iff_of_true (fun impossible => by cases impossible) refused
  · refine iff_of_false (fun honest => ?_) refused
    by_cases longest : (responseHead r uuid).length + payload.data.length = 2147483647
    · have short : (responseHead r uuid).length ≤ 1073741822 := by
        unfold Refused at refused
        omega
      rw [reply_overruns uuidText socket payload short longest, Honest, reports_error] at honest
      cases honest
    have fits := fits_of_not_refused refused longest
    cases socket with
    | none =>
        rw [reply_no_socket uuidText payload fits.1 fits.2, Honest, reports_error] at honest
        cases honest
    | some s =>
        rw [reply_sends uuidText s payload fits.1 fits.2, Honest, reports_ok] at honest
        obtain ⟨other, same, t, text, connId, before, -, -, -, after⟩ := honest rfl
        cases before
        -- The body alone is longer than the header of the message.
        have lengths := congrArg List.length (push_injective (Option.some.inj after))
        have front : (dataBytes (some h)).length = h.data.length := rfl
        have back : (dataBytes (some b)).length = b.data.length := rfl
        simp only [bytes, List.length_append, four, length_envelope] at lengths
        have total := fits.2
        omega

/-- An HTTP reply overruns a block or is the reply of some payload. -/
theorem replyHttp_cases (headers body : Option Bstring) :
    mongrel2ReplyHttp socket req headers body = .error .outOfBounds ∨
      ∃ payload, mongrel2ReplyHttp socket req headers body = mongrel2Reply socket req payload := by
  cases headers with
  | none => exact .inr ⟨none, rfl⟩
  | some h =>
      by_cases copies : Copies h.data.length (dataBytes body).length
      · obtain ⟨whole, separated, kept, beside⟩ := copies
        by_cases short : h.data.length + 4 + (dataBytes body).length < 2147483647
        · obtain ⟨payload, -, replies⟩ := replyHttp_complete socket req h body short
          exact .inr ⟨_, replies⟩
        · by_cases room : h.data.length + 4 < 2147483647
          · cases body with
            | none => exact absurd room short
            | some b =>
                have long : 2147483647 < h.data.length + 4 + b.data.length :=
                  Nat.lt_of_le_of_ne (Nat.le_of_not_lt short) (Ne.symm kept)
                obtain ⟨payload, -, replies⟩ := replyHttp_truncated socket req h b room long
                exact .inr ⟨_, replies⟩
          · have crowded : 2147483647 < h.data.length + 4 := by omega
            obtain ⟨payload, -, replies⟩ :=
              replyHttp_crowded socket req h body whole crowded (beside crowded)
            exact .inr ⟨_, replies⟩
      · exact .inl (replyHttp_overruns socket req h body copies)

/-- What an HTTP reply of a named request hands over. -/
theorem replyHttp_settles_iff {r : Mongrel2Request} {uuid : Bytes}
    (uuidText : bdata r.uuid = some uuid) (h : Bstring) (body : Option Bstring) :
    Honest (mongrel2ReplyHttp socket (some r) (some h) body) (some r)
        (dataBytes (some h) ++ SEPERATOR.data ++ dataBytes body) socket ↔
      SettlesHttp socket r uuid h.data.length (dataBytes body).length := by
  have four : SEPERATOR.data.length = 4 := rfl
  by_cases copies : Copies h.data.length (dataBytes body).length
  · rw [SettlesHttp, and_iff_right copies]
    obtain ⟨whole, separated, kept, beside⟩ := copies
    by_cases short : h.data.length + 4 + (dataBytes body).length < 2147483647
    · obtain ⟨payload, bytes, replies⟩ := replyHttp_complete socket (some r) h body short
      have length : payload.data.length = h.data.length + 4 + (dataBytes body).length := by
        rw [bytes, List.length_append, List.length_append, four]
      have same : dataBytes (some h) ++ SEPERATOR.data ++ dataBytes body = payload.data :=
        bytes.symm
      rw [replies, same, reply_settles_iff, length]
      constructor
      · exact fun settles => .inl ⟨short, settles⟩
      · rintro (⟨-, settles⟩ | ⟨long, -⟩)
        · exact settles
        · omega
    · have long : 2147483647 < h.data.length + 4 + (dataBytes body).length :=
        Nat.lt_of_le_of_ne (Nat.le_of_not_lt short) (Ne.symm kept)
      have refused_iff : (h.data.length + 4 + (dataBytes body).length < 2147483647 ∧
            Settles socket r (h.data.length + 4 + (dataBytes body).length) ∨
          2147483647 < h.data.length + 4 + (dataBytes body).length ∧
            Refused (responseHead r uuid).length (h.data.length + 4)) ↔
          Refused (responseHead r uuid).length (h.data.length + 4) := by
        constructor
        · rintro (⟨impossible, -⟩ | ⟨-, refused⟩)
          · exact absurd impossible short
          · exact refused
        · exact fun refused => .inr ⟨long, refused⟩
      rw [refused_iff]
      by_cases room : h.data.length + 4 < 2147483647
      · cases body with
        | none => exact absurd room short
        | some b => exact replyHttp_truncated_iff socket uuidText h b room long
      · have crowded : 2147483647 < h.data.length + 4 := by omega
        obtain ⟨payload, larger, replies⟩ :=
          replyHttp_crowded socket (some r) h body whole crowded (beside crowded)
        have six := length_responseHead r uuid
        rw [replies, reply_refuses uuidText socket _ (.inr (.inr ⟨payload, rfl, by omega⟩)), Honest,
          reports_ok]
        refine iff_of_true (fun impossible => by cases impossible) (.inr ?_)
        omega
  · rw [replyHttp_overruns socket (some r) h body copies, Honest, reports_error]
    exact iff_of_false (by decide) fun settles => copies settles.1

theorem replyHttp_honest_iff (headers body : Option Bstring) :
    Honest (mongrel2ReplyHttp socket req headers body) req
        (dataBytes headers ++ SEPERATOR.data ++ dataBytes body) socket ↔
      ∃ r uuid, req = some r ∧ bdata r.uuid = some uuid ∧
        ∀ h, headers = some h →
          SettlesHttp socket r uuid h.data.length (dataBytes body).length := by
  by_cases named : ∃ r uuid, req = some r ∧ bdata r.uuid = some uuid
  · obtain ⟨r, uuid, rfl, uuidText⟩ := named
    cases headers with
    | none =>
        have replies : mongrel2ReplyHttp socket (some r) none body =
            mongrel2Reply socket (some r) none := rfl
        rw [replies, reply_null_iff]
        exact iff_of_true ⟨uuid, uuidText⟩ ⟨r, uuid, rfl, uuidText, fun h impossible => by
          cases impossible⟩
    | some h =>
        rw [replyHttp_settles_iff socket uuidText]
        constructor
        · exact fun settles => ⟨r, uuid, rfl, uuidText, fun other same => by cases same; exact settles⟩
        · rintro ⟨other, text, same, textEq, settles⟩
          cases same
          cases uuidText.symm.trans textEq
          exact settles h rfl
  · refine iff_of_false (fun honest => ?_) fun settles => named ?_
    swap
    · obtain ⟨r, uuid, same, uuidText, -⟩ := settles
      exact ⟨r, uuid, same, uuidText⟩
    have stops (payload : Option Bstring) :
        mongrel2Reply socket req payload = .error .nullPointer := by
      cases req with
      | none => rfl
      | some r =>
          cases uuidText : bdata r.uuid with
          | none => exact reply_no_uuid uuidText socket payload
          | some uuid => exact absurd ⟨r, uuid, rfl, uuidText⟩ named
    obtain overruns | ⟨payload, replies⟩ := replyHttp_cases socket req headers body
    · rw [overruns, Honest, reports_error] at honest
      cases honest
    · rw [replies, stops, Honest, reports_error] at honest
      cases honest

end Replies

end M2Handler.Reporting

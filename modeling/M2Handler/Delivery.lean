import M2Handler.Handler.Parsing
import M2Handler.Websocket.Sending

/-!
# Delivery

A reply to a request that came from a documented message carries the identity
of that message and the payload unchanged, for every path that ends in
`mongrel2_reply`.  Only sizes stand in the way: the formatted header has to
stay below `2 ^ 30 - 1` bytes and the message below `INT_MAX`.
-/

namespace M2Handler.Delivery

open Machine Text Bstr Handler Websocket

/-- The run gave one message to `zmq_sendmsg`, and its only decoding has these
parts. -/
def Delivers (run : Exec (Int × Option Mongrel2Socket)) (socket : Mongrel2Socket)
    (uuid connId payload : Bytes) : Prop :=
  ∃ code message, run = .ok (code, some (socket.push message)) ∧
    Decodes message uuid connId payload

/-- A message that the run gave to `zmq_sendmsg` has no decoding with an empty
payload. -/
def NeverEmpty (run : Exec (Int × Option Mongrel2Socket)) (socket : Mongrel2Socket) : Prop :=
  ∀ code after message accepted, run = .ok (code, some after) →
    after.calls = socket.calls ++ [(message, accepted)] →
      ∀ response : Response, response.bytes = message → response.payload ≠ []

/-- The sizes that the formatting and the concatenation of a reply accept. -/
def Fits (head payload : Nat) : Prop := head ≤ 1073741822 ∧ head + payload < 2147483647

/-! ## The message of a call -/

theorem message_of_push {socket after : Mongrel2Socket} {pushed message : Bytes}
    {accepted : Bool} (same : after = socket.push pushed)
    (handed : after.calls = socket.calls ++ [(message, accepted)]) :
    message = pushed ∧ accepted = socket.next := by
  rw [same] at handed
  have last := congrArg List.getLast? handed
  simp only [Mongrel2Socket.push, List.getLast?_concat, Option.some.injEq, Prod.mk.injEq] at last
  exact ⟨last.1.symm, last.2.symm⟩

theorem not_handed {socket : Mongrel2Socket} {message : Bytes} {accepted : Bool} :
    socket.calls ≠ socket.calls ++ [(message, accepted)] := by
  intro same
  have lengths := congrArg List.length same
  simp at lengths

section Canonical

variable {req : Mongrel2Request} {uuid connId : Bytes} (canonical : Canonical req uuid connId)
  (absent : Absent 32 uuid) (socket : Mongrel2Socket)
include canonical absent

/-- A reply delivers its payload exactly when the sizes fit. -/
theorem reply_delivers_iff (payload : Bstring) :
    Delivers (mongrel2Reply (some socket) (some req) (some payload)) socket uuid connId
        payload.data ↔
      Fits (envelope uuid connId).length payload.data.length := by
  have head := responseHead_canonical canonical
  constructor
  · rintro ⟨code, message, returned, _⟩
    obtain ⟨text, uuidText, ⟨_, unchanged⟩ | ⟨_, _, _, payloadEq, _, _, short, fits⟩⟩ :=
      reply_inv returned
    · have lengths := congrArg (fun s : Option Mongrel2Socket => s.map fun s => s.calls.length)
        unchanged
      simp [Mongrel2Socket.push] at lengths
    · rw [canonical.uuidText] at uuidText
      cases uuidText
      cases payloadEq
      rw [head] at short fits
      exact ⟨short, fits⟩
  · rintro ⟨short, fits⟩
    have sent := reply_sends canonical.uuidText socket payload (by rw [head]; exact short)
      (by rw [head]; exact fits)
    rw [head] at sent
    exact ⟨_, _, sent, decodes_envelope absent connId payload.data⟩

/-- A message with a payload that was handed over is not decoded with an empty one. -/
theorem neverEmpty_of_pushed {text message payload : Bytes} {after : Mongrel2Socket}
    {accepted : Bool} (uuidText : bdata req.uuid = some text)
    (pushed : some after = some (socket.push (responseHead req text ++ payload)))
    (handed : after.calls = socket.calls ++ [(message, accepted)]) (nonempty : payload ≠ [])
    (response : Response) (bytes : response.bytes = message) : response.payload ≠ [] := by
  rw [canonical.uuidText] at uuidText
  cases uuidText
  rw [(message_of_push (Option.some.inj pushed) handed).1, responseHead_canonical canonical]
    at bytes
  have parts := (decodes_envelope absent connId payload).2 response bytes
  rw [parts.2.2.2]
  exact nonempty

/-! ## The convenience senders -/

omit canonical absent in
/-- The headers and the separator are joined; what is left is the body. -/
theorem replyHttp_headed (socket : Option Mongrel2Socket) (req : Option Mongrel2Request)
    (headers : Bstring) (fits : headers.data.length + 4 < 2147483647) :
    ∃ headed : Bstring, Owned headed ∧ headed.data = headers.data ++ SEPERATOR.data ∧
      ∀ body, mongrel2ReplyHttp socket req (some headers) body =
        bconcat (some headed) body >>= fun joined => mongrel2Reply socket req joined.2 := by
  have four : SEPERATOR.data.length = 4 := rfl
  obtain ⟨copy, copied, copyOwned, copyBytes⟩ := bstrcpy_eq headers (by omega)
  obtain ⟨headed, joined, owned, bytes⟩ := bconcat_eq copyOwned SEPERATOR
    (by rw [copyBytes, four]; omega)
  rw [copyBytes] at bytes
  refine ⟨headed, owned, bytes, fun body => ?_⟩
  rw [mongrel2ReplyHttp, copied, Exec.ok_bind, joined, Exec.ok_bind]

omit canonical absent in
/-- The payload of an HTTP reply. -/
theorem replyHttp_replies (pubSocket : Option Mongrel2Socket) (some? : Option Mongrel2Request)
    (headers body : Bstring)
    (fits : headers.data.length + 4 + body.data.length < 2147483647) :
    ∃ payload : Bstring, payload.data = headers.data ++ SEPERATOR.data ++ body.data ∧
      mongrel2ReplyHttp pubSocket some? (some headers) (some body) =
        mongrel2Reply pubSocket some? (some payload) := by
  have four : SEPERATOR.data.length = 4 := rfl
  obtain ⟨headed, owned, headBytes, replies⟩ := replyHttp_headed pubSocket some? headers (by omega)
  obtain ⟨payload, joined, -, bytes⟩ := bconcat_eq owned body
    (by rw [headBytes, List.length_append, four]; omega)
  rw [headBytes] at bytes
  exact ⟨payload, bytes, by rw [replies, joined, Exec.ok_bind]⟩

omit canonical absent in
/-- An HTTP reply that returns is the reply of a payload that is as long as the
headers and not empty. -/
theorem replyHttp_inv {socket after : Option Mongrel2Socket} {req : Option Mongrel2Request}
    {headers body : Option Bstring} {code : Int}
    (returned : mongrel2ReplyHttp socket req headers body = .ok (code, after)) :
    ∃ payload, mongrel2Reply socket req payload = .ok (code, after) ∧
      ∀ p, payload = some p →
        ∃ h, headers = some h ∧ h.data.length ≤ p.data.length ∧ 0 < p.data.length := by
  rw [mongrel2ReplyHttp] at returned
  obtain ⟨copy, copied, returned⟩ := Exec.bind_eq_ok.mp returned
  obtain ⟨⟨_, head⟩, headJoined, returned⟩ := Exec.bind_eq_ok.mp returned
  obtain ⟨⟨_, payload⟩, joined, returned⟩ := Exec.bind_eq_ok.mp returned
  refine ⟨payload, returned, ?_⟩
  rintro p rfl
  cases headers with
  | none =>
      cases copied
      cases headJoined
      cases joined
  | some h =>
      have short : h.data.length < 2147483647 := by
        by_contra long
        rw [bstrcpy_longest h (by have := h.fits; omega)] at copied
        cases copied
      obtain ⟨made, makes, owned, copyBytes⟩ := bstrcpy_eq h short
      rw [makes] at copied
      cases copied
      have four : SEPERATOR.data.length = 4 := rfl
      obtain ⟨headed, headEq, headOwned, headCase⟩ := bconcat_inv owned headJoined
      cases headEq
      have front : h.data.length ≤ headed.data.length ∧ 0 < headed.data.length := by
        rw [← copyBytes]
        obtain ⟨x, xEq, _, bytes, _⟩ | ⟨same, _, impossible | ⟨x, xEq, tooLong⟩⟩ := headCase
        · cases xEq
          rw [bytes, List.length_append, four]
          omega
        · cases impossible
        · cases xEq
          rw [same]
          omega
      obtain ⟨final, finalEq, _, finalCase⟩ := bconcat_inv headOwned joined
      cases finalEq
      refine ⟨h, rfl, ?_⟩
      obtain ⟨x, _, _, bytes, _⟩ | ⟨same, _⟩ := finalCase
      · rw [bytes, List.length_append]
        omega
      · rw [same]
        exact front

theorem replyHttp_delivers_iff (headers body : Bstring)
    (total : (envelope uuid connId).length +
      (headers.data.length + 4 + body.data.length) ≤ 2147483647) :
    Delivers (mongrel2ReplyHttp (some socket) (some req) (some headers) (some body)) socket uuid
        connId (headers.data ++ SEPERATOR.data ++ body.data) ↔
      Fits (envelope uuid connId).length (headers.data.length + 4 + body.data.length) := by
  have positive := length_responseHead req uuid
  rw [responseHead_canonical canonical] at positive
  obtain ⟨payload, bytes, replies⟩ := replyHttp_replies (some socket) (some req) headers body
    (by omega)
  have length : payload.data.length = headers.data.length + 4 + body.data.length := by
    rw [bytes, List.length_append, List.length_append]
    rfl
  rw [replies, ← bytes, ← length]
  exact reply_delivers_iff canonical absent socket payload

theorem disconnect_delivers_iff :
    Delivers (mongrel2Disconnect (some socket) (some req)) socket uuid connId [] ↔
      Fits (envelope uuid connId).length 0 := by
  obtain ⟨close, made, _, bytes⟩ := bfromcstr_empty
  have replies : mongrel2Disconnect (some socket) (some req) =
      mongrel2Reply (some socket) (some req) (some close) := by
    rw [mongrel2Disconnect, if_neg (by simp), if_neg (by simp), made, Exec.ok_bind]
  have length : close.data.length = 0 := by
    rw [bytes]
    rfl
  rw [replies, ← bytes, ← length]
  exact reply_delivers_iff canonical absent socket close

theorem replyHttp_neverEmpty (headers body : Option Bstring) :
    NeverEmpty (mongrel2ReplyHttp (some socket) (some req) headers body) socket := by
  intro code after message accepted returned handed
  obtain ⟨payload, replied, behind⟩ := replyHttp_inv returned
  obtain ⟨text, uuidText, ⟨_, unchanged⟩ | ⟨_, p, socketEq, payloadEq, _, pushed, _⟩⟩ :=
    reply_inv replied
  · cases unchanged
    exact absurd handed not_handed
  · cases socketEq
    obtain ⟨_, _, _, nonempty⟩ := behind p payloadEq
    exact neverEmpty_of_pushed canonical absent socket uuidText pushed handed
      (List.length_pos_iff.mp nonempty)

theorem wsReply_neverEmpty (host : Host) (data : Option Bstring) :
    NeverEmpty (mongrel2WsReply host (some socket) (some req) data) socket := by
  intro code after message accepted returned handed
  obtain unchanged | ⟨_, text, socketEq, uuidText, pushed⟩ := wsReply_inv host returned
  · cases unchanged
    exact absurd handed not_handed
  · cases socketEq
    refine neverEmpty_of_pushed canonical absent socket uuidText pushed handed ?_
    rw [textBytes_eq]
    exact List.cons_ne_nil _ _

end Canonical

/-! ## Replies to parsed requests -/

/-- A request from a documented message is canonical. -/
theorem canonical_of_parsed {host : Host} {headerlen bodylen : Int32}
    {uuid path headers body : Bytes} {connId : Nat} (connIdInt : connId ≤ 2147483647)
    (uuidAbsent : Absent 32 uuid) (uuidNulFree : Absent 0 uuid)
    (pathAbsent : Absent 32 path) {raw : Bstring} {req : Mongrel2Request}
    (bytes : raw.data = documented uuid (decimal connId) path headers body)
    (parsed : mongrel2ParseRequest host headerlen bodylen (some raw) = .ok (some req)) :
    Canonical req uuid (decimal connId) := by
  obtain ⟨other, accepted, described⟩ := describes_documented host headerlen bodylen uuidAbsent
    (decimal_no_space connId) pathAbsent bytes
  rw [parsed] at accepted
  cases accepted
  refine ⟨described.uuid, uuidNulFree, described.connIdBstr, ?_⟩
  rw [described.connId]
  change _ = printInt (sscanfInt host (decimal connId) 0).toInt
  rw [(counts_decimal host connIdInt).2, printInt_of_nat]

/-- The replies to a request from a documented message deliver their payload to
its connection exactly when the sizes fit, and none but a disconnect delivers
an empty one. -/
theorem parsed_replies_iff {host : Host} {headerlen bodylen : Int32}
    {uuid path headers body : Bytes} {connId : Nat} (connIdInt : connId ≤ 2147483647)
    (uuidAbsent : Absent 32 uuid) (uuidNulFree : Absent 0 uuid)
    (pathAbsent : Absent 32 path) {raw : Bstring} {req : Mongrel2Request}
    (bytes : raw.data = documented uuid (decimal connId) path headers body)
    (parsed : mongrel2ParseRequest host headerlen bodylen (some raw) = .ok (some req))
    (socket : Mongrel2Socket) :
    (∀ payload : Bstring,
      Delivers (mongrel2Reply (some socket) (some req) (some payload)) socket uuid
          (decimal connId) payload.data ↔
        Fits (envelope uuid (decimal connId)).length payload.data.length) ∧
    (∀ head text : Bstring,
      (envelope uuid (decimal connId)).length + (head.data.length + 4 + text.data.length) ≤
        2147483647 →
      (Delivers (mongrel2ReplyHttp (some socket) (some req) (some head) (some text)) socket uuid
          (decimal connId) (head.data ++ SEPERATOR.data ++ text.data) ↔
        Fits (envelope uuid (decimal connId)).length
          (head.data.length + 4 + text.data.length))) ∧
    (Delivers (mongrel2Disconnect (some socket) (some req)) socket uuid (decimal connId) [] ↔
      Fits (envelope uuid (decimal connId)).length 0) ∧
    (∀ head text : Option Bstring,
      NeverEmpty (mongrel2ReplyHttp (some socket) (some req) head text) socket) ∧
    (∀ (build : Host) (data : Option Bstring),
      NeverEmpty (mongrel2WsReply build (some socket) (some req) data) socket) := by
  have canonical := canonical_of_parsed connIdInt uuidAbsent uuidNulFree pathAbsent bytes parsed
  exact ⟨reply_delivers_iff canonical uuidAbsent socket,
    replyHttp_delivers_iff canonical uuidAbsent socket,
    disconnect_delivers_iff canonical uuidAbsent socket,
    replyHttp_neverEmpty canonical uuidAbsent socket,
    wsReply_neverEmpty canonical uuidAbsent socket⟩

def rawSeven : Bstring :=
  ⟨16, documented [117] (decimal 7) [47] [123, 125] [98], by decide⟩

theorem bytes_rawSeven :
    rawSeven.data = documented [117] (decimal 7) [47] [123, 125] [98] :=
  rfl

theorem parse_rawSeven :
    ∃ req, mongrel2ParseRequest linuxHost 0 0 (some rawSeven) = .ok (some req) := by
  obtain ⟨req, accepted, _⟩ := describes_documented linuxHost 0 0 (by decide) (by decide)
    (by decide) bytes_rawSeven
  exact ⟨req, accepted⟩

theorem parsed_replies_seven :
    ∃ req, mongrel2ParseRequest linuxHost 0 0 (some rawSeven) = .ok (some req) ∧
      (Delivers (mongrel2Reply (some openSocket) (some req) (some ⟨8, [1], by decide⟩))
          openSocket [117] (decimal 7) [1] ↔
        Fits (envelope [117] (decimal 7)).length 1) := by
  obtain ⟨req, parsed⟩ := parse_rawSeven
  exact ⟨req, parsed, (parsed_replies_iff (by decide) (by decide) (by decide) (by decide)
    bytes_rawSeven parsed openSocket).1 ⟨8, [1], by decide⟩⟩

/-- A message of `INT_MAX` bytes is not delivered. -/
theorem parsed_reply_longest :
    ∃ (req : Mongrel2Request) (payload : Bstring),
      mongrel2ParseRequest linuxHost 0 0 (some rawSeven) = .ok (some req) ∧
      (envelope [117] (decimal 7)).length + payload.data.length = 2147483647 ∧
      ¬ Delivers (mongrel2Reply (some openSocket) (some req) (some payload)) openSocket [117]
        (decimal 7) payload.data := by
  obtain ⟨req, parsed⟩ := parse_rawSeven
  have canonical := canonical_of_parsed (by decide) (by decide) (by decide) (by decide)
    bytes_rawSeven parsed
  have head : (envelope [117] (decimal 7)).length = 7 := by decide
  have count : (List.replicate 2147483640 (0 : UInt8)).length = 2147483640 :=
    List.length_replicate
  refine ⟨req, ⟨-1, List.replicate 2147483640 0, by rw [count]; decide⟩, parsed, ?_, ?_⟩
  · dsimp only
    rw [head, count]
  · rw [reply_delivers_iff canonical (by decide), head]
    dsimp only
    rw [count]
    unfold Fits
    omega

end M2Handler.Delivery

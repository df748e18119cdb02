import M2Handler.Bstr.Contracts
import M2Handler.Handler.Send

/-!
# Responses

The grammar of the bytes that go back to Mongrel2, and the bytes that
`mongrel2_reply` hands to `mongrel2_send`.  A response has one decoding.  A
reply is sent when its formatted header has at most `2 ^ 30 - 2` bytes and the
whole message has less than `INT_MAX`.
-/

namespace M2Handler.Handler

open Machine Text Bstr

/-! ## The response grammar -/

/-- `UUID LEN:CONN_ID, PAYLOAD`. -/
structure Response where
  uuid : Bytes
  len : Bytes
  connId : Bytes
  payload : Bytes
  uuid_no_space : Absent 32 uuid
  len_digits : ∀ byte ∈ len, isDigit byte = true
  len_value : digitsValue len = connId.length

def Response.bytes (response : Response) : Bytes :=
  response.uuid ++ 32 :: (response.len ++ 58 :: (response.connId ++ 44 :: 32 :: response.payload))

/-- The part in front of a delimiter does not depend on how the text is cut. -/
theorem append_cons_unique {delimiter : UInt8} {first second firstRest secondRest : Bytes}
    (firstAbsent : Absent delimiter first)
    (secondAbsent : Absent delimiter second)
    (same : first ++ delimiter :: firstRest = second ++ delimiter :: secondRest) :
    first = second ∧ firstRest = secondRest := by
  induction first generalizing second with
  | nil =>
      cases second with
      | nil =>
          cases same
          exact ⟨rfl, rfl⟩
      | cons byte rest =>
          cases same
          exact absurd rfl (secondAbsent _ List.mem_cons_self)
  | cons byte rest ih =>
      cases second with
      | nil =>
          cases same
          exact absurd rfl (firstAbsent _ List.mem_cons_self)
      | cons other others =>
          rw [List.cons_append, List.cons_append, List.cons.injEq] at same
          obtain ⟨rfl, same⟩ := same
          obtain ⟨rfl, rests⟩ := ih
            (fun byte member => firstAbsent byte (List.mem_cons_of_mem _ member))
            (fun byte member => secondAbsent byte (List.mem_cons_of_mem _ member)) same
          exact ⟨rfl, rests⟩

/-- A message is the response of one decoding only. -/
theorem Response.bytes_injective {first second : Response} (same : first.bytes = second.bytes) :
    first = second := by
  have colonAbsent (response : Response) : Absent 58 response.len :=
    fun byte member => (digit_ne (response.len_digits byte member)).2.2.2.1
  obtain ⟨uuids, rest⟩ := append_cons_unique first.uuid_no_space second.uuid_no_space same
  obtain ⟨lens, rest⟩ := append_cons_unique (colonAbsent first) (colonAbsent second) rest
  have lengths : first.connId.length = second.connId.length := by
    rw [← first.len_value, ← second.len_value, lens]
  obtain ⟨connIds, rest⟩ := List.append_inj rest lengths
  cases first
  cases second
  cases uuids
  cases lens
  cases connIds
  cases rest
  rfl

/-- The message is a response, and every decoding of it gives these parts. -/
def Decodes (message uuid connId payload : Bytes) : Prop :=
  (∃ response : Response, response.bytes = message) ∧
    ∀ response : Response, response.bytes = message →
      response.uuid = uuid ∧ response.len = decimal connId.length ∧
        response.connId = connId ∧ response.payload = payload

def envelope (uuid connId : Bytes) : Bytes :=
  uuid ++ 32 :: (decimal connId.length ++ 58 :: (connId ++ [44, 32]))

theorem length_envelope (uuid connId : Bytes) :
    (envelope uuid connId).length =
      uuid.length + (decimal connId.length).length + connId.length + 4 := by
  unfold envelope
  simp only [List.length_append, List.length_cons, List.length_nil]
  omega

theorem decodes_envelope {uuid : Bytes} (absent : Absent 32 uuid)
    (connId payload : Bytes) : Decodes (envelope uuid connId ++ payload) uuid connId payload := by
  have shape : (⟨uuid, decimal connId.length, connId, payload, absent,
      isDigit_of_mem_decimal _, digitsValue_decimal _⟩ : Response).bytes =
        envelope uuid connId ++ payload := by
    simp [Response.bytes, envelope]
  refine ⟨⟨_, shape⟩, ?_⟩
  intro response bytes
  rw [← shape] at bytes
  rw [Response.bytes_injective bytes]
  exact ⟨rfl, rfl, rfl, rfl⟩

/-! ## The formatted header -/

/-- The request carries this UUID and connection id, and its two forms of the
connection id agree. -/
structure Canonical (req : Mongrel2Request) (uuid connId : Bytes) : Prop where
  uuidText : bdata req.uuid = some uuid
  uuidNulFree : Absent 0 uuid
  connIdText : bdata req.connIdBstr = some connId
  connIdPrinted : connId = printInt req.connId.toInt

/-- What `RESPONSE_HEADER` formats to for a request with this `uuid`. -/
def responseHead (req : Mongrel2Request) (uuid : Bytes) : Bytes :=
  formatResponse (blength req.uuid) uuid (blength req.connIdBstr) req.connId.toInt

theorem responseHead_nulFree (req : Mongrel2Request) (uuid : Bytes) :
    Absent 0 (responseHead req uuid) := by
  intro byte member
  simp only [responseHead, formatResponse, padLeft, List.mem_append, List.mem_cons,
    List.mem_replicate, List.not_mem_nil, or_false] at member
  obtain (⟨_, rfl⟩ | text) | rfl | length | rfl | connId | rfl | rfl := member
  · decide
  · exact cString_nulFree uuid byte text
  · decide
  · exact printInt_nulFree _ byte length
  · decide
  · exact printInt_nulFree _ byte connId
  · decide
  · decide

theorem length_responseHead (req : Mongrel2Request) (uuid : Bytes) :
    6 ≤ (responseHead req uuid).length := by
  have printed (number : Int) : 0 < (printInt number).length := by
    have digits := List.length_pos_iff.mpr (decimal_ne_nil number.natAbs)
    unfold printInt
    split
    · exact Nat.succ_pos _
    · exact digits
  have length := printed (blength req.connIdBstr)
  have connId := printed req.connId.toInt
  simp only [responseHead, formatResponse, List.length_append, List.length_cons, List.length_nil]
  omega

theorem blength_of_bdata {b : Option Bstring} {data : Bytes} (same : bdata b = some data) :
    blength b = data.length := by
  cases b with
  | none => cases same
  | some b =>
      cases same
      rfl

theorem responseHead_canonical {req : Mongrel2Request} {uuid connId : Bytes}
    (canonical : Canonical req uuid connId) : responseHead req uuid = envelope uuid connId := by
  have width := blength_of_bdata canonical.uuidText
  have length := blength_of_bdata canonical.connIdText
  have text := cString_eq canonical.uuidNulFree
  have pad : padLeft (blength req.uuid) (cString uuid) = uuid := by
    rw [padLeft, width, text, Int.toNat_natCast, Nat.sub_self]
    rfl
  rw [responseHead, formatResponse, pad, length, ← canonical.connIdPrinted, printInt_of_nat]
  rfl

/-! ## One reply -/

section Reply

variable {req : Mongrel2Request} {uuid : Bytes} (uuidText : bdata req.uuid = some uuid)
include uuidText

/-- The bytes of a short message are given to `zmq_sendmsg` once. -/
theorem reply_sends (socket : Mongrel2Socket) (payload : Bstring)
    (headShort : (responseHead req uuid).length ≤ 1073741822)
    (fits : (responseHead req uuid).length + payload.data.length < 2147483647) :
    mongrel2Reply (some socket) (some req) (some payload) =
      .ok (0, some (socket.push (responseHead req uuid ++ payload.data))) := by
  obtain ⟨response, formatted, owned, text⟩ := bformat_eq
    (responseHead_nulFree req uuid) responseHeader (by decide) headShort
  obtain ⟨message, joined, _, bytes⟩ := bconcat_eq owned payload (by rw [text]; exact fits)
  rw [text] at bytes
  rw [responseHead] at formatted
  rw [mongrel2Reply, deref_some, Exec.ok_bind, uuidText, deref_some, Exec.ok_bind, formatted,
    Exec.ok_bind, joined, Exec.ok_bind]
  dsimp only
  rw [if_neg (by simp), mongrel2Send, deref_some, Exec.ok_bind, bdata, bytes]
  rfl

/-- At `INT_MAX` bytes the payload is written behind the block of the header. -/
theorem reply_overruns (pubSocket : Option Mongrel2Socket) (payload : Bstring)
    (headShort : (responseHead req uuid).length ≤ 1073741822)
    (longest : (responseHead req uuid).length + payload.data.length = 2147483647) :
    mongrel2Reply pubSocket (some req) (some payload) = .error .outOfBounds := by
  obtain ⟨response, formatted, owned, text⟩ := bformat_eq
    (responseHead_nulFree req uuid) responseHeader (by decide) headShort
  have overrun := bconcat_overruns owned payload (by rw [text]; exact longest)
  rw [responseHead] at formatted
  rw [mongrel2Reply, deref_some, Exec.ok_bind, uuidText, deref_some, Exec.ok_bind, formatted,
    Exec.ok_bind, overrun]
  rfl

/-- A header that is not formatted, a null payload and a message of more than
`INT_MAX` bytes give `-1`. -/
theorem reply_refuses (pubSocket : Option Mongrel2Socket) (payload : Option Bstring)
    (refused : 1073741822 < (responseHead req uuid).length ∨ payload = none ∨
      ∃ p, payload = some p ∧ 2147483647 < (responseHead req uuid).length + p.data.length) :
    mongrel2Reply pubSocket (some req) payload = .ok (-1, pubSocket) := by
  have failed : ∀ response : Option Bstring,
      bformat responseHeader (responseHead req uuid) = .ok response →
        ∃ rest, bconcat response payload = .ok (-1, rest) := by
    intro response formatted
    by_cases long : 1073741822 < (responseHead req uuid).length
    · rw [bformat_refuses (responseHead_nulFree req uuid) _ (by decide) long] at formatted
      cases formatted
      exact ⟨none, rfl⟩
    · obtain ⟨made, makes, owned, text⟩ := bformat_eq
        (responseHead_nulFree req uuid) responseHeader (by decide) (by omega)
      rw [makes] at formatted
      cases formatted
      obtain impossible | rfl | ⟨p, rfl, tooLong⟩ := refused
      · exact absurd impossible long
      · exact ⟨some made, rfl⟩
      · exact ⟨some made, bconcat_refuses p (by rw [text]; exact tooLong)⟩
  have returns : ∃ response, bformat responseHeader (responseHead req uuid) = .ok response := by
    by_cases long : 1073741822 < (responseHead req uuid).length
    · exact ⟨none, bformat_refuses (responseHead_nulFree req uuid) _ (by decide) long⟩
    · obtain ⟨made, makes, _⟩ := bformat_eq
        (responseHead_nulFree req uuid) responseHeader (by decide) (by omega)
      exact ⟨some made, makes⟩
  obtain ⟨response, formatted⟩ := returns
  obtain ⟨rest, failure⟩ := failed response formatted
  rw [responseHead] at formatted
  rw [mongrel2Reply, deref_some, Exec.ok_bind, uuidText, deref_some, Exec.ok_bind, formatted,
    Exec.ok_bind, failure, Exec.ok_bind]
  rfl

/-- Without a socket the message that would be sent faults. -/
theorem reply_no_socket (payload : Bstring)
    (headShort : (responseHead req uuid).length ≤ 1073741822)
    (fits : (responseHead req uuid).length + payload.data.length < 2147483647) :
    mongrel2Reply none (some req) (some payload) = .error .nullPointer := by
  obtain ⟨response, formatted, owned, text⟩ := bformat_eq
    (responseHead_nulFree req uuid) responseHeader (by decide) headShort
  obtain ⟨message, joined, _, bytes⟩ := bconcat_eq owned payload (by rw [text]; exact fits)
  rw [responseHead] at formatted
  rw [mongrel2Reply, deref_some, Exec.ok_bind, uuidText, deref_some, Exec.ok_bind, formatted,
    Exec.ok_bind, joined, Exec.ok_bind]
  rfl

end Reply

theorem reply_no_uuid {req : Mongrel2Request} (uuidText : bdata req.uuid = none)
    (socket : Option Mongrel2Socket) (payload : Option Bstring) :
    mongrel2Reply socket (some req) payload = .error .nullPointer := by
  rw [mongrel2Reply, deref_some, Exec.ok_bind, uuidText]
  rfl

/-- A reply faults, refuses, or gives one message to `zmq_sendmsg`. -/
theorem reply_cases (pubSocket : Option Mongrel2Socket) (req : Mongrel2Request)
    (payload : Option Bstring) :
    (∃ fault : Fault, fault.Halts ∧ mongrel2Reply pubSocket (some req) payload = .error fault) ∨
      ∃ uuid, bdata req.uuid = some uuid ∧
        (mongrel2Reply pubSocket (some req) payload = .ok (-1, pubSocket) ∨
          ∃ socket p, pubSocket = some socket ∧ payload = some p ∧
            mongrel2Reply pubSocket (some req) payload =
              .ok (0, some (socket.push (responseHead req uuid ++ p.data))) ∧
            (responseHead req uuid).length ≤ 1073741822 ∧
            (responseHead req uuid).length + p.data.length < 2147483647) := by
  cases uuidText : bdata req.uuid with
  | none => exact .inl ⟨.nullPointer, trivial, reply_no_uuid uuidText pubSocket payload⟩
  | some uuid =>
      by_cases refused : 1073741822 < (responseHead req uuid).length ∨ payload = none ∨
          ∃ p, payload = some p ∧ 2147483647 < (responseHead req uuid).length + p.data.length
      · exact .inr ⟨uuid, rfl, .inl (reply_refuses uuidText pubSocket payload refused)⟩
      · obtain ⟨headShort, present, short⟩ := not_or.mp refused |>.imp id not_or.mp
        obtain ⟨p, rfl⟩ := Option.ne_none_iff_exists'.mp present
        have within : ¬ 2147483647 < (responseHead req uuid).length + p.data.length :=
          fun long => short ⟨p, rfl, long⟩
        by_cases longest : (responseHead req uuid).length + p.data.length = 2147483647
        · exact .inl ⟨.outOfBounds, trivial,
            reply_overruns uuidText pubSocket p (by omega) longest⟩
        · cases pubSocket with
          | none =>
              exact .inl ⟨.nullPointer, trivial, reply_no_socket uuidText p (by omega) (by omega)⟩
          | some socket =>
              exact .inr ⟨uuid, rfl, .inr ⟨socket, p, rfl, rfl,
                reply_sends uuidText socket p (by omega) (by omega), by omega, by omega⟩⟩

/-- A reply that returns has refused, or has given one message to
`zmq_sendmsg`. -/
theorem reply_inv {pubSocket after : Option Mongrel2Socket} {req : Mongrel2Request}
    {payload : Option Bstring} {code : Int}
    (returned : mongrel2Reply pubSocket (some req) payload = .ok (code, after)) :
    ∃ uuid, bdata req.uuid = some uuid ∧
      ((code = -1 ∧ after = pubSocket) ∨
        ∃ socket p, pubSocket = some socket ∧ payload = some p ∧ code = 0 ∧
          after = some (socket.push (responseHead req uuid ++ p.data)) ∧
          (responseHead req uuid).length ≤ 1073741822 ∧
          (responseHead req uuid).length + p.data.length < 2147483647) := by
  obtain ⟨fault, -, stopped⟩ | ⟨uuid, uuidText, refused | ⟨socket, p, open', given, sent, sizes⟩⟩ :=
    reply_cases pubSocket req payload
  · rw [stopped] at returned
    cases returned
  · rw [refused] at returned
    cases returned
    exact ⟨uuid, uuidText, .inl ⟨rfl, rfl⟩⟩
  · rw [sent] at returned
    cases returned
    exact ⟨uuid, uuidText, .inr ⟨socket, p, open', given, rfl, rfl, sizes⟩⟩

/-- A reply ends. -/
theorem reply_halts {pubSocket : Option Mongrel2Socket} {req : Mongrel2Request}
    {payload : Option Bstring} {fault : Fault}
    (faulted : mongrel2Reply pubSocket (some req) payload = .error fault) : fault.Halts := by
  obtain ⟨other, halts, stopped⟩ | ⟨uuid, -, refused | ⟨socket, p, -, -, sent, -⟩⟩ :=
    reply_cases pubSocket req payload
  · rw [stopped] at faulted
    cases faulted
    exact halts
  · rw [refused] at faulted
    cases faulted
  · rw [sent] at faulted
    cases faulted

def requestSeven : Mongrel2Request where
  uuid := some ⟨8, [117], by decide⟩
  connId := 7
  connIdBstr := some ⟨8, [55], by decide⟩
  path := some ⟨8, [47], by decide⟩
  rawHeaders := some ⟨8, [123, 125], by decide⟩
  headers := none
  body := some ⟨8, [98], by decide⟩

theorem uuid_requestSeven : bdata requestSeven.uuid = some [117] :=
  rfl

def openSocket : Mongrel2Socket := ⟨fun _ => true, []⟩

theorem canonical_requestSeven : Canonical requestSeven [117] [55] :=
  ⟨rfl, by decide, rfl, by decide⟩

end M2Handler.Handler

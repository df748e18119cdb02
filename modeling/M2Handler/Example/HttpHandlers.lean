import M2Handler.Bstr.Letters
import M2Handler.Delivery
import M2Handler.Handler.Receiving
import M2Handler.Machine.Lockstep

/-!
# The handlers `body_toupper.c` and `null_handler.c`

The loops of these programs answer one message after the other over HTTP.  The
first sends every body back in upper case and then closes the connection.  The
second answers with the same headers every time and is silent about a body in which
it finds `disconnect`.
-/

namespace M2Handler.Example.HttpHandlers

open Machine Text Bstr Handler Delivery

variable (host : Host)

/-! ## The programs -/

def upperTurn (headers : Option Bstring) (pubSocket : Option Mongrel2Socket) (arrival : Arrival) :
    Exec (Option Mongrel2Socket) := do
  let request ← mongrel2Recv host arrival
  let request ← deref request
  let (_, body) := btoupper request.body
  let request := { request with body := body }
  let (_, pubSocket) ← mongrel2ReplyHttp pubSocket (some request) headers request.body
  let (_, pubSocket) ← mongrel2Disconnect pubSocket (some request)
  return pubSocket

def upperHeaders : Bytes :=
  asciiBytes "HTTP/1.1 200 OK\r\nDate: Fri, 07 Jan 2011 01:15:42 GMT\r\n" ++
    asciiBytes "Status: 200 OK\r\nConnection: close"

def bodyToupper (pubSocket : Option Mongrel2Socket) (arrivals : List Arrival) :
    Exec (Option Mongrel2Socket) := do
  let headers ← bfromcstr (some upperHeaders)
  arrivals.foldlM (upperTurn host headers) pubSocket

theorem disconnect_fits : (asciiBytes "disconnect").length ≤ 2147483647 := by decide +kernel

def DISCONNECT : Bstring := bsStatic (asciiBytes "disconnect") disconnect_fits

def EMPTY_BODY : Bstring := bsStatic [] (by decide)

/-- `blength(request->body) > 0 && binstrcaseless(...) != BSTR_ERR`. -/
def skips (body : Option Bstring) : Exec Bool :=
  if 0 < blength body then do
    let place ← binstrcaseless body 0 (some DISCONNECT)
    return place ≠ -1
  else return false

def nullTurn (headers : Option Bstring) (pubSocket : Option Mongrel2Socket) (arrival : Arrival) :
    Exec (Option Mongrel2Socket) := do
  let request ← mongrel2Recv host arrival
  let request ← deref request
  let skipped ← skips request.body
  if skipped then return pubSocket
  else do
    let (_, pubSocket) ← mongrel2ReplyHttp pubSocket (some request) headers (some EMPTY_BODY)
    return pubSocket

/-- What `sprintf` makes of the id of the handler. -/
def nullHeaders (sender : Bytes) : Bytes :=
  asciiBytes "HTTP/1.1 204 No Content\r\nX-Ident: " ++ (cString sender ++
    asciiBytes "\r\nStatus: 200 OK")

/-- `main` of `null_handler.c`: `sprintf` writes a text and its NUL into 100 bytes. -/
def nullHandler (sender : Option Bytes) (pubSocket : Option Mongrel2Socket)
    (arrivals : List Arrival) : Exec (Option Mongrel2Socket) := do
  let sender ← deref sender
  if 100 < (nullHeaders sender).length + 1 then .error .outOfBounds
  else do
    let headers ← bfromcstr (some (nullHeaders sender))
    arrivals.foldlM (nullTurn host headers) pubSocket

/-! ## Documented messages -/

/-- A documented message of at most a gigabyte. -/
structure Incoming where
  uuid : Bytes
  connId : Nat
  path : Bytes
  headers : Bytes
  body : Bytes
  uuidAbsent : Absent 32 uuid
  uuidNulFree : Absent 0 uuid
  pathAbsent : Absent 32 path
  connIdInt : connId ≤ 2147483647
  fits : (documented uuid (decimal connId) path headers body).length ≤ 1000000000

namespace Incoming

variable (incoming : Incoming)

def bytes : Bytes :=
  documented incoming.uuid (decimal incoming.connId) incoming.path incoming.headers incoming.body

def response (payload : Bytes) : Bytes :=
  envelope incoming.uuid (decimal incoming.connId) ++ payload

/-- The envelope and the body are not much longer than the message. -/
theorem length_response :
    (envelope incoming.uuid (decimal incoming.connId)).length + incoming.body.length ≤
      1000000100 := by
  have digits : (decimal incoming.connId).length ≤ 10 := by
    have small := incoming.connIdInt
    exact length_decimal_le (show incoming.connId < 10 ^ (9 + 1) by omega)
  have few : (decimal (decimal incoming.connId).length).length ≤ 2 :=
    length_decimal_le (show (decimal incoming.connId).length < 10 ^ (1 + 1) by omega)
  have fits := incoming.fits
  rw [documented] at fits
  simp only [List.length_append, List.length_cons] at fits
  rw [length_envelope]
  omega

end Incoming

/-- The message came, whatever the parser finds in its variables. -/
def Brings (arrival : Arrival) (incoming : Incoming) : Prop := arrival.message = incoming.bytes

section Answers

variable {host} {arrival : Arrival} {incoming : Incoming}

/-- What the loops know of a documented message. -/
theorem recv_incoming (brings : Brings arrival incoming) :
    ∃ (request : Mongrel2Request) (body : Bstring),
      mongrel2Recv host arrival = .ok (some request) ∧
      Canonical request incoming.uuid (decimal incoming.connId) ∧
      request.body = some body ∧ Owned body ∧ body.data = incoming.body := by
  have short : arrival.message.length < 2147483647 := by
    have fits := incoming.fits
    rw [brings, Incoming.bytes]
    omega
  obtain ⟨raw, bytes, received⟩ := recv_eq host arrival short
  rw [brings] at bytes
  obtain ⟨request, parsed, described⟩ := describes_documented host arrival.headerlen
    arrival.bodylen incoming.uuidAbsent (decimal_no_space incoming.connId) incoming.pathAbsent bytes
  obtain ⟨body, held, owned⟩ := parse_owned host parsed
  refine ⟨request, body, received.trans parsed, ?_, held, owned, ?_⟩
  · exact canonical_of_parsed incoming.connIdInt incoming.uuidAbsent incoming.uuidNulFree
      incoming.pathAbsent bytes parsed
  · have same := described.body
    rw [held] at same
    exact Option.some.inj same

/-- A reply to a documented message goes out. -/
theorem reply_incoming {request : Mongrel2Request}
    (canonical : Canonical request incoming.uuid (decimal incoming.connId))
    (socket : Mongrel2Socket) (payload : Bstring)
    (few : payload.data.length ≤ incoming.body.length + 300) :
    mongrel2Reply (some socket) (some request) (some payload) =
      .ok (0, some (socket.push (incoming.response payload.data))) := by
  have head := responseHead_canonical canonical
  have length := incoming.length_response
  have sent := reply_sends canonical.uuidText socket payload (by rw [head]; omega)
    (by rw [head]; omega)
  rw [head] at sent
  exact sent

theorem replyHttp_incoming {request : Mongrel2Request}
    (canonical : Canonical request incoming.uuid (decimal incoming.connId))
    (socket : Mongrel2Socket) {headers body : Bstring} (few : headers.data.length ≤ 200)
    (short : body.data.length ≤ incoming.body.length) :
    mongrel2ReplyHttp (some socket) (some request) (some headers) (some body) =
      .ok (0, some (socket.push
        (incoming.response (headers.data ++ SEPERATOR.data ++ body.data)))) := by
  have length := incoming.length_response
  obtain ⟨payload, bytes, replies⟩ :=
    replyHttp_replies (some socket) (some request) headers body (by omega)
  have four : SEPERATOR.data.length = 4 := rfl
  have count : payload.data.length = headers.data.length + 4 + body.data.length := by
    rw [bytes, List.length_append, List.length_append, four]
  rw [replies, reply_incoming canonical socket payload (by omega), bytes]

theorem disconnect_incoming {request : Mongrel2Request}
    (canonical : Canonical request incoming.uuid (decimal incoming.connId))
    (socket : Mongrel2Socket) :
    mongrel2Disconnect (some socket) (some request) =
      .ok (0, some (socket.push (incoming.response []))) := by
  obtain ⟨close, made, -, bytes⟩ := bfromcstr_empty
  rw [mongrel2Disconnect, if_neg (by simp), if_neg (by simp), made, Exec.ok_bind,
    reply_incoming canonical socket close (by rw [bytes]; exact Nat.zero_le _), bytes]

/-! ## Upper case -/

/-- The body in upper case over HTTP, and then the message that closes the connection. -/
def upperAnswers (incoming : Incoming) : List Bytes :=
  [incoming.response (upperHeaders ++ SEPERATOR.data ++ incoming.body.map upcase),
    incoming.response []]

theorem upperTurn_eq (brings : Brings arrival incoming) {headers : Bstring}
    (same : headers.data = upperHeaders) (socket : Mongrel2Socket) :
    upperTurn host (some headers) (some socket) arrival =
      .ok (some ((upperAnswers incoming).foldl Mongrel2Socket.push socket)) := by
  obtain ⟨request, body, received, canonical, held, owned, bytes⟩ := recv_incoming brings
  have room := owned.room
  have fits : (body.data.map upcase).length ≤ 2147483647 := by
    rw [List.length_map]
    exact body.fits
  have upper : btoupper (some body) = (0, some ⟨body.mlen, body.data.map upcase, fits⟩) := by
    rw [btoupper, if_neg]
    unfold Bstring.slen
    omega
  have kept : Canonical { request with body := some ⟨body.mlen, body.data.map upcase, fits⟩ }
      incoming.uuid (decimal incoming.connId) :=
    ⟨canonical.uuidText, canonical.uuidNulFree, canonical.connIdText, canonical.connIdPrinted⟩
  have few : headers.data.length ≤ 200 := by
    rw [same]
    decide
  rw [upperTurn, received, Exec.ok_bind, deref_some, Exec.ok_bind, held, upper]
  dsimp only
  rw [replyHttp_incoming kept socket few (by rw [List.length_map, bytes]), Exec.ok_bind]
  dsimp only
  rw [disconnect_incoming kept, Exec.ok_bind]
  dsimp only
  rw [same, bytes]
  rfl

/-- The messages that a socket was given. -/
theorem calls_foldl_push (messages : List Bytes) (socket : Mongrel2Socket) :
    ((messages.foldl Mongrel2Socket.push socket).calls.map Prod.fst) =
      socket.calls.map Prod.fst ++ messages := by
  induction messages generalizing socket with
  | nil => exact (List.append_nil _).symm
  | cons message messages ih =>
      rw [List.foldl_cons, ih]
      simp [Mongrel2Socket.push]

/-- Every documented message is answered by its body in upper case and the end of
its connection, in order. -/
theorem upper_answers_each (socket : Mongrel2Socket) {arrivals : List Arrival}
    {messages : List Incoming} (brings : List.Forall₂ Brings arrivals messages) :
    ∃ after, bodyToupper host (some socket) arrivals = .ok (some after) ∧
      after.calls.map Prod.fst = socket.calls.map Prod.fst ++ messages.flatMap upperAnswers := by
  obtain ⟨headers, made, -, bytes⟩ := bfromcstr_eq upperHeaders (by decide)
  refine ⟨_, ?_, calls_foldl_push (messages.flatMap upperAnswers) socket⟩
  rw [bodyToupper, made, Exec.ok_bind]
  have turns (start : Mongrel2Socket) (arrival : Arrival) (incoming : Incoming)
      (brings : Brings arrival incoming) :
      upperTurn host (some headers) (some start) arrival =
        .ok (some ((upperAnswers incoming).foldl Mongrel2Socket.push start)) :=
    upperTurn_eq brings bytes start
  exact foldlM_emits turns brings socket

/-! ## Silence -/

/-- The headers over HTTP, if `disconnect` does not occur in the body. -/
def nullAnswers (sender : Bytes) (incoming : Incoming) : List Bytes :=
  if Occurs DISCONNECT.data incoming.body then []
  else [incoming.response (nullHeaders sender ++ SEPERATOR.data)]

theorem skips_incoming {body : Bstring} (bytes : body.data = incoming.body) :
    skips (some body) = .ok (decide (Occurs DISCONNECT.data incoming.body)) := by
  rw [skips]
  by_cases nonempty : 0 < blength (some body)
  · obtain ⟨place, searched, ⟨rfl, absent⟩ | ⟨found, rfl, lies, -⟩⟩ :=
      binstrcaseless_eq body DISCONNECT (by decide)
    · rw [if_pos nonempty, searched, ← bytes, decide_eq_false absent]
      rfl
    · rw [if_pos nonempty, searched, ← bytes, decide_eq_true (occurs_iff.mpr ⟨found, lies⟩),
        Exec.ok_bind, decide_eq_true (by omega)]
      rfl
  · have empty : body.data = [] := List.eq_nil_of_length_eq_zero (by
      change ¬ 0 < (body.data.length : Int) at nonempty
      omega)
    rw [if_neg nonempty, ← bytes, empty]
    rfl

theorem nullTurn_eq (brings : Brings arrival incoming) {sender : Bytes} {headers : Bstring}
    (same : headers.data = nullHeaders sender) (few : (nullHeaders sender).length < 100)
    (socket : Mongrel2Socket) :
    nullTurn host (some headers) (some socket) arrival =
      .ok (some ((nullAnswers sender incoming).foldl Mongrel2Socket.push socket)) := by
  obtain ⟨request, body, received, canonical, held, -, bytes⟩ := recv_incoming brings
  rw [nullTurn, received, Exec.ok_bind, deref_some, Exec.ok_bind, held, skips_incoming bytes,
    Exec.ok_bind, nullAnswers]
  by_cases occurs : Occurs DISCONNECT.data incoming.body
  · rw [if_pos (decide_eq_true occurs), if_pos occurs]
    rfl
  · have empty : EMPTY_BODY.data.length ≤ incoming.body.length := Nat.zero_le _
    rw [if_neg (by simp [occurs]), if_neg occurs,
      replyHttp_incoming canonical socket (by rw [same]; omega) empty, Exec.ok_bind]
    dsimp only
    rw [same]
    simp [EMPTY_BODY, bsStatic]

/-- With a short id the program gives the same answer to every documented message,
but for those in whose body `disconnect` occurs in letters of any case. -/
theorem null_answers_each {sender : Bytes} (few : (nullHeaders sender).length < 100)
    (socket : Mongrel2Socket) {arrivals : List Arrival} {messages : List Incoming}
    (brings : List.Forall₂ Brings arrivals messages) :
    ∃ after, nullHandler host (some sender) (some socket) arrivals = .ok (some after) ∧
      after.calls.map Prod.fst =
        socket.calls.map Prod.fst ++ messages.flatMap (nullAnswers sender) := by
  obtain ⟨headers, made, -, bytes⟩ := bfromcstr_eq (nullHeaders sender) (by omega)
  refine ⟨_, ?_, calls_foldl_push (messages.flatMap (nullAnswers sender)) socket⟩
  rw [nullHandler, deref_some, Exec.ok_bind, if_neg (by omega), made, Exec.ok_bind]
  have turns (start : Mongrel2Socket) (arrival : Arrival) (incoming : Incoming)
      (brings : Brings arrival incoming) :
      nullTurn host (some headers) (some start) arrival =
        .ok (some ((nullAnswers sender incoming).foldl Mongrel2Socket.push start)) :=
    nullTurn_eq brings bytes few start
  exact foldlM_emits turns brings socket

end Answers

/-! ## Connection 7 -/

theorem uuid_absent : Absent 32 [117] := by decide

def incomingSeven (body : Bytes) (short : (documented [117] (decimal 7) [47] [123, 125]
    body).length ≤ 1000000000) : Incoming where
  uuid := [117]
  connId := 7
  path := [47]
  headers := [123, 125]
  body := body
  uuidAbsent := uuid_absent
  uuidNulFree := by decide
  pathAbsent := by decide
  connIdInt := by decide
  fits := short

def messagesSeven : List Incoming :=
  [incomingSeven (asciiBytes "hello") (by decide),
    incomingSeven (asciiBytes "Disconnect") (by decide)]

def arrivalsSeven : List Arrival := messagesSeven.map fun incoming => ⟨incoming.bytes, 0, 0⟩

theorem brings_arrivalsSeven : List.Forall₂ Brings arrivalsSeven messagesSeven :=
  .cons rfl (.cons rfl .nil)

theorem upper_answers_each_seven :
    ∃ after, bodyToupper linuxHost (some openSocket) arrivalsSeven = .ok (some after) ∧
      after.calls.map Prod.fst =
        openSocket.calls.map Prod.fst ++ messagesSeven.flatMap upperAnswers :=
  upper_answers_each openSocket brings_arrivalsSeven

/-- Only `hello` is answered. -/
theorem null_answers_each_seven :
    ∃ after, nullHandler linuxHost (some [109]) (some openSocket) arrivalsSeven =
        .ok (some after) ∧
      after.calls.length = openSocket.calls.length + 1 := by
  obtain ⟨after, ran, calls⟩ :=
    @null_answers_each linuxHost [109] (by decide) openSocket _ _ brings_arrivalsSeven
  refine ⟨after, ran, ?_⟩
  have count := congrArg List.length calls
  rw [List.length_append, List.length_map, List.length_map] at count
  rw [count]
  decide

end M2Handler.Example.HttpHandlers

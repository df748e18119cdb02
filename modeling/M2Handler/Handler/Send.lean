import M2Handler.Handler.Request

/-!
# Replies

The path of a reply to `zmq_sendmsg`.  A socket keeps the messages that it was
given together with the answers of `zmq_sendmsg`, which are fixed in advance.
A null socket or request is `none`.
-/

namespace M2Handler.Handler

open Machine Text Bstr

/-! ## The socket -/

structure Mongrel2Socket where
  /-- Whether `zmq_sendmsg` accepts the message of its call with this number. -/
  accepts : Nat → Bool
  /-- The messages given to `zmq_sendmsg`, oldest first, and whether it
  accepted them. -/
  calls : List (Bytes × Bool)

def Mongrel2Socket.next (socket : Mongrel2Socket) : Bool := socket.accepts socket.calls.length

def Mongrel2Socket.push (socket : Mongrel2Socket) (message : Bytes) : Mongrel2Socket :=
  { socket with calls := socket.calls ++ [(message, socket.next)] }

def zmqSendmsg (socket : Mongrel2Socket) (message : Bytes) : Int × Mongrel2Socket :=
  (if socket.next then message.length else -1, socket.push message)

def mongrel2Send (pubSocket : Option Mongrel2Socket) (response : Option Bstring) :
    Exec (Int × Option Mongrel2Socket) := do
  let message := (bdata response).getD []
  let socket ← deref pubSocket
  let (_, socket) := zmqSendmsg socket message
  return (0, some socket)

/-! ## Replies -/

def responseHeader : Bytes := asciiBytes "%*s %d:%d, "

/-- `%*s`: right-justified in a field of this width. -/
def padLeft (width : Int) (text : Bytes) : Bytes :=
  List.replicate (width.toNat - text.length) 32 ++ text

def formatResponse (width : Int) (uuid : Bytes) (length connId : Int) : Bytes :=
  padLeft width (cString uuid) ++ 32 :: (printInt length ++ 58 :: (printInt connId ++ [44, 32]))

/-- A null `uuid` faults: `%s` needs a string. -/
def mongrel2Reply (pubSocket : Option Mongrel2Socket) (req : Option Mongrel2Request)
    (payload : Option Bstring) : Exec (Int × Option Mongrel2Socket) := do
  let req ← deref req
  let uuid ← deref (bdata req.uuid)
  let response ← bformat responseHeader
    (formatResponse (blength req.uuid) uuid (blength req.connIdBstr) req.connId.toInt)
  let (retval, response) ← bconcat response payload
  if retval ≠ 0 then return (-1, pubSocket)
  else mongrel2Send pubSocket response

def SEPERATOR : Bstring := bsStatic [13, 10, 13, 10] (by decide)

def mongrel2ReplyHttp (pubSocket : Option Mongrel2Socket) (req : Option Mongrel2Request)
    (headers body : Option Bstring) : Exec (Int × Option Mongrel2Socket) := do
  let payload ← bstrcpy headers
  let (_, payload) ← bconcat payload (some SEPERATOR)
  let (_, payload) ← bconcat payload body
  mongrel2Reply pubSocket req payload

def mongrel2Disconnect (pubSocket : Option Mongrel2Socket) (req : Option Mongrel2Request) :
    Exec (Int × Option Mongrel2Socket) := do
  if req.isNone then return (-1, pubSocket)
  else if pubSocket.isNone then return (-1, pubSocket)
  else
    let close ← bfromcstr (some [])
    mongrel2Reply pubSocket req close

/-! ## Request headers -/

/-- The functions of other libraries that the library builds on. -/
structure Libraries where
  /-- `json_loads` without flags, on the text of a C string. -/
  jsonLoads : Bytes → Option Json
  sha1 : Bytes → Bytes
  length_sha1 : ∀ data, (sha1 data).length = 20

/-- `json_object_get`: null unless the value is an object with this member. -/
def jsonObjectGet (value : Option Json) (key : Bytes) : Option Json :=
  match value with
  | some (.object members) => (members.find? fun member => member.1 = key).map (·.2)
  | _ => none

/-- `json_string_value`: null unless the value is a string. -/
def jsonStringValue : Option Json → Option Bytes
  | some (.string value) => some (cString value)
  | _ => none

def Json.isObject : Json → Bool
  | .object _ => true
  | _ => false

variable (libraries : Libraries)

/-- The C result, then the request. -/
def mongrel2ParseHeaders (req : Mongrel2Request) : Int × Mongrel2Request :=
  let loaded := (bdata req.rawHeaders).bind fun text => libraries.jsonLoads (cString text)
  match loaded with
  | none => (-1, { req with headers := none })
  | some value =>
      if value.isObject then (0, { req with headers := some value })
      else (-1, { req with headers := none })

/-- The header value, or null, then the request. -/
def mongrel2RequestGetHeader (req : Mongrel2Request) (key : Bytes) :
    Exec (Option Bstring × Mongrel2Request) := do
  let (rc, req) :=
    match req.headers with
    | none => mongrel2ParseHeaders libraries req
    | some _ => (0, req)
  if rc ≠ 0 then return (none, req)
  else
    let headerVal := jsonObjectGet req.headers key
    let retval ← bfromcstr (jsonStringValue headerVal)
    return (retval, req)

end M2Handler.Handler

import M2Handler.Handler.Send
import M2Handler.Websocket.Framing

/-!
# WebSocket replies

A reply frames its data without a mask and hands the frame to
`mongrel2_reply`.  The handshake answer is computed from the key of the request
headers.  A build without `NDEBUG` prints the frame before it is sent.
-/

namespace M2Handler.Websocket

open Machine Text Bstr Handler Framing

variable (host : Host) (libraries : Libraries)

/-! ## Frame debugging -/

/-- A read of the C string that starts at this index of the block. -/
def readCString (block : Bytes) (start : Int) : Exec Bytes :=
  let rest := block.drop start.toNat
  if 0 ≤ start ∧ 0 ∈ rest then .ok (cString rest) else .error .outOfBounds

/-- The reads of the printout.  The conversion `%*s` of the payload has a width
and no precision, so it reads up to a NUL. -/
def mongrel2WsFrameDebug (len : Nat) (header : Bytes) : Exec Unit := do
  let _ ← mongrel2WsFrameGetFin host len header
  let _ ← mongrel2WsFrameGetRsrvd1 host len header
  let _ ← mongrel2WsFrameGetRsrvd2 host len header
  let _ ← mongrel2WsFrameGetRsrvd3 host len header
  let _ ← mongrel2WsFrameGetOpcode host len header
  let maskp ← mongrel2WsFrameGetMaskPresent host len header
  let _ ← mongrel2WsFrameGetPayloadType host len header
  let mask ← if maskp = 1 then mongrel2WsFrameGetMask host len header else pure 0
  let _ ← mongrel2WsFrameGetPayloadSize host len header
  let (_, size, payload) ← mongrel2WsFrameGetPayload host len header
  if 0 < size ∧ size < 60 then
    let _ ← readCString header payload
    if maskp = 1 then
      let unmasked ← readBlock header payload size.toNat
      let _ ← mongrel2WsFrameUnmask host mask size.toNat unmasked 0
      return ()
    else return ()
  else if 0 < size then
    let _ ← readCString header payload
    return ()
  else return ()

/-! ## Replies -/

def mongrel2WsReply (pubSocket : Option Mongrel2Socket) (req : Option Mongrel2Request)
    (data : Option Bstring) : Exec (Int × Option Mongrel2Socket) := do
  let reqLen := UInt64.ofNat (blength data).toNat
  let reqData := (bdata data).getD []
  let (retval, payloadLen, payloadData) ← mongrel2WsFrameCreate host 0 reqLen
  if retval ≠ 0 then return (-1, pubSocket)
  else
    let frame ← deref payloadData
    let (_, frame) ← mongrel2WsFrameSetPayload host payloadLen.toNat frame reqData
    let (_, frame) ← mongrel2WsFrameSetOpcode host payloadLen.toNat frame opText
    let (_, frame) ← mongrel2WsFrameSetFin host payloadLen.toNat frame
    ifDebug host.ndebug (mongrel2WsFrameDebug host payloadLen.toNat frame)
    let outgoing ← blk2bstr (some frame) (toInt payloadLen.toNat)
    cassert host.ndebug (blength outgoing = payloadLen.toNat)
    let (_, pubSocket) ← mongrel2Reply pubSocket req outgoing
    return (0, pubSocket)

/-! ## Handshake -/

def websocket08Guid : Bytes := asciiBytes "258EAFA5-E914-47DA-95CA-C5AB0DC85B11"

/-- `WEBSOCKET_08_UPGRADE` in front of its conversion. -/
def upgradeHead : Bytes := asciiBytes
  "HTTP/1.1 101 Switching Protocols\r\nUpgrade: websocket\r\nConnection: Upgrade\r\nSec-WebSocket-Accept: "

def websocket08Upgrade : Bytes := upgradeHead ++ asciiBytes "%*s\r\n\r\n"

def websocket08Key : Bytes := asciiBytes "sec-websocket-key"

def sha1Len : Int := 20

def b64ETable : Bytes :=
  asciiBytes "ABCDEFGHIJKLMNOPQRSTUVWXYZabcdefghijklmnopqrstuvwxyz0123456789+/"

/-- The calls of `bconchar` joined by `||`: null at the first one that fails. -/
def bconchars (out : Option Bstring) : Bytes → Exec (Option Bstring)
  | [] => return out
  | c :: rest => do
      let (status, out) ← bconchar out c
      if status < 0 then return none else bconchars out rest

/-- The line break in front of the group at index `i`. -/
def bBase64Break (out : Option Bstring) (i : Nat) : Exec (Option Bstring) :=
  if i ≠ 0 ∧ i % 57 = 0 then bconchars out [13, 10] else return out

/-- The loop of `bBase64Encode` from index `i`, and the `switch` behind it. -/
def bBase64Loop (out : Option Bstring) (i : Nat) : Bytes → Exec (Option Bstring)
  | b0 :: b1 :: b2 :: rest => do
      let out ← bBase64Break out i
      let c0 := b0 >>> 2
      let c1 := ((b0 <<< 4) ||| (b1 >>> 4)) &&& 0x3F
      let c2 := ((b1 <<< 2) ||| (b2 >>> 6)) &&& 0x3F
      let c3 := b2 &&& 0x3F
      let out ← bconchars out ([c0, c1, c2, c3].map fun c => b64ETable.getD c.toNat 0)
      bBase64Loop out (i + 3) rest
  | [b0, b1] => do
      let out ← bBase64Break out i
      let c0 := b0 >>> 2
      let c1 := ((b0 <<< 4) ||| (b1 >>> 4)) &&& 0x3F
      let c2 := (b1 <<< 2) &&& 0x3F
      bconchars out (([c0, c1, c2].map fun c => b64ETable.getD c.toNat 0) ++ [61])
  | [b0] => do
      let out ← bBase64Break out i
      let c0 := b0 >>> 2
      let c1 := (b0 <<< 4) &&& 0x3F
      bconchars out (([c0, c1].map fun c => b64ETable.getD c.toNat 0) ++ [61, 61])
  | [] => bBase64Break out i

def bBase64Encode (b : Option Bstring) : Exec (Option Bstring) :=
  match b with
  | none => return none
  | some b => do
      let out ← bfromcstr (some [])
      bBase64Loop out 0 b.data

/-- The C result, then `*ptr`, then the request. -/
def mongrel2WsCalculateAccept (req : Mongrel2Request) (ptr : Option Bstring) :
    Exec (Int × Option Bstring × Mongrel2Request) := do
  let (key, req) ← mongrel2RequestGetHeader libraries req websocket08Key
  if key.isNone then return (-1, ptr, req)
  else
    let (retval, key) ← bcatcstr key (some websocket08Guid)
    if retval ≠ 0 then return (-1, ptr, req)
    else
      let buf := libraries.sha1 ((bdata key).getD [])
      let accept ← blk2bstr (some buf) sha1Len
      let acceptEncoded ← bBase64Encode accept
      return (0, acceptEncoded, req)

/-- The headers, or null, then the request. -/
def mongrel2WsUpgradeHeaders (req : Mongrel2Request) :
    Exec (Option Bstring × Mongrel2Request) := do
  let accept ← bfromcstr (some [])
  let (retval, accept, req) ← mongrel2WsCalculateAccept libraries req accept
  if retval ≠ 0 then return (none, req)
  else
    let text ← deref (bdata accept)
    let headers ← bformat websocket08Upgrade
      (upgradeHead ++ padLeft (blength accept) (cString text) ++ [13, 10, 13, 10])
    return (headers, req)

/-- The C result, then the socket and the request. -/
def mongrel2WsReplyUpgrade (req : Option Mongrel2Request) (socket : Option Mongrel2Socket) :
    Exec (Int × Option Mongrel2Socket × Mongrel2Request) := do
  let req ← deref req
  let (headers, req) ← mongrel2WsUpgradeHeaders libraries req
  let (_, socket) ← mongrel2Reply socket (some req) headers
  return (0, socket, req)

end M2Handler.Websocket

import M2Handler.Host
import M2Handler.Machine.Block

/-!
# WebSocket framing

The accessors and the constructor of a frame buffer.  A frame is the block of
its bytes; `len` and `size` are the caller's idea of its length.  A setter
returns its C result with the buffer it leaves.  Diagnostic output is not part
of the model.
-/

namespace M2Handler.Websocket.Framing

open Machine

/-! ## Header file -/

def maskFlag : UInt8 := 0x80

def opText : UInt32 := 1

/-- `ftype`, with the value `-1` that `get_payload_type` reserves for errors. -/
inductive FType where
  | small
  | medium
  | large
  | invalid
  deriving DecidableEq, Repr

variable (host : Host)

/-! ## Control flags -/

def mongrel2WsFrameSetFin (len : Nat) (frame : Bytes) : Exec (Int × Bytes) := do
  cassert host.ndebug (0 < len)
  let frame ← orByte frame 0 ((0x01 : UInt8) <<< 7)
  return (0, frame)

/-- The common body of the four flag getters: one bit of byte 0. -/
def frameFlag (bit shift : UInt8) (len : Nat) (frame : Bytes) : Exec UInt8 := do
  cassert host.ndebug (0 < len)
  let byte ← readByte frame 0
  return (byte &&& bit) >>> shift

def mongrel2WsFrameGetFin : Nat → Bytes → Exec UInt8 := frameFlag host 0x80 7

def mongrel2WsFrameGetRsrvd1 : Nat → Bytes → Exec UInt8 := frameFlag host 0x40 6

def mongrel2WsFrameGetRsrvd2 : Nat → Bytes → Exec UInt8 := frameFlag host 0x20 5

def mongrel2WsFrameGetRsrvd3 : Nat → Bytes → Exec UInt8 := frameFlag host 0x10 4

def mongrel2WsFrameGetOpcode (len : Nat) (frame : Bytes) : Exec UInt8 := do
  cassert host.ndebug (0 < len)
  let byte ← readByte frame 0
  return byte &&& 0x0F

def mongrel2WsFrameSetOpcode (len : Nat) (frame : Bytes) (opcode : UInt32) :
    Exec (Int × Bytes) := do
  cassert host.ndebug (0 < len)
  let frame ← orByte frame 0 (0x0F &&& opcode).toUInt8
  return (0, frame)

/-! ## Payload -/

def mongrel2WsFrameGetPayloadType (len : Nat) (frame : Bytes) : Exec FType := do
  cassert host.ndebug (1 < len)
  let byte ← readByte frame 1
  let type := byte &&& 0x7F
  if type ≤ 125 then return .small
  else if type = 126 then return .medium
  else if type = 127 then return .large
  else return .invalid

def mongrel2WsFrameSetPayloadSize (len : Nat) (frame : Bytes) (size : UInt64) :
    Exec (Int × Bytes) := do
  cassert host.ndebug (2 < len)
  if size ≤ 125 then
    let frame ← orByte frame 1 (size &&& 0x7F).toUInt8
    return (0, frame)
  else if 126 ≤ size ∧ size ≤ 65536 then
    let frame ← orByte frame 1 (126 &&& 0x7F)
    let dest := htons host.endian size.toUInt16
    let frame ← writeBlock frame 2 (host.endian.bytes 2 dest.toNat)
    return (0, frame)
  else if 65537 ≤ size then
    let frame ← orByte frame 1 (127 &&& 0x7F)
    let frame ← writeBlock frame 2 (host.endian.bytes 8 size.toNat)
    return (0, frame)
  else return (-1, frame)

def mongrel2WsFrameGetPayloadSize (len : Nat) (frame : Bytes) : Exec UInt64 := do
  let type ← mongrel2WsFrameGetPayloadType host len frame
  match type with
  | .small =>
      let byte ← readByte frame 1
      return (byte &&& 0x7F).toUInt64
  | .medium =>
      let short ← readBlock frame 2 2
      return (htons host.endian (UInt16.ofNat (host.endian.value short))).toUInt64
  | .large =>
      let long ← readBlock frame 2 8
      return UInt64.ofNat (host.endian.value long)
  | .invalid => return 0

def mongrel2WsFrameGetMaskPresent (len : Nat) (frame : Bytes) : Exec UInt8 := do
  cassert host.ndebug (1 < len)
  let byte ← readByte frame 1
  return (byte &&& maskFlag) >>> 7

def mongrel2WsFrameGetPayloadStart (size : Nat) (frame : Bytes) : Exec Int := do
  let type ← mongrel2WsFrameGetPayloadType host size frame
  let maskPresent ← mongrel2WsFrameGetMaskPresent host size frame
  let retval : Int := 0
  let retval := retval + 2
  let retval := if maskPresent = 1 then retval + 4 else retval
  match type with
  | .small => return retval
  | .medium => return retval + 2
  | .large => return retval + 8
  | .invalid => return -1

/-- `incoming` is the block of the `i_size` bytes to copy. -/
def mongrel2WsFrameSetPayload (size : Nat) (frame incoming : Bytes) : Exec (Int × Bytes) := do
  let payloadStart ← mongrel2WsFrameGetPayloadStart host size frame
  let frame ← writeBlock frame payloadStart incoming
  return (0, frame)

/-- The C result, then `*osize`, then the index in `frame` at which `*opayload`
points. -/
def mongrel2WsFrameGetPayload (size : Nat) (frame : Bytes) : Exec (Int × UInt64 × Int) := do
  let payloadStart ← mongrel2WsFrameGetPayloadStart host size frame
  let payloadSize ← mongrel2WsFrameGetPayloadSize host size frame
  return (0, payloadSize, payloadStart)

/-! ## Mask -/

def mongrel2WsFrameGetMaskStart (size : Nat) (frame : Bytes) : Exec Int := do
  if size < 5 then return -2
  else
    let maskPresent ← mongrel2WsFrameGetMaskPresent host size frame
    if maskPresent ≠ 1 then return -3
    else
      let maskStart : Int := 2
      let sizeClass ← mongrel2WsFrameGetPayloadType host size frame
      match sizeClass with
      | .small => return maskStart
      | .medium => return maskStart + 2
      | .large => return maskStart + 8
      | .invalid => return -1

def mongrel2WsFrameSetMask (size : Nat) (frame : Bytes) (mask : UInt32) :
    Exec (Int × Bytes) := do
  cassert host.ndebug (5 < size)
  let maskStart ← mongrel2WsFrameGetMaskStart host size frame
  if maskStart < 0 then return (-1, frame)
  else
    let maskBytes := host.endian.bytes 4 mask.toNat
    let frame ← writeBlock frame maskStart maskBytes
    let payloadStart ← mongrel2WsFrameGetPayloadStart host size frame
    let wideSize ← mongrel2WsFrameGetPayloadSize host size frame
    -- The 64-bit size becomes an `int`; a negative one leaves the loop at once.
    let payloadSize := toInt wideSize.toNat
    let frame ← xorLoop maskBytes payloadStart payloadSize.toNat 0 frame
    return (0, frame)

def mongrel2WsFrameGetMask (size : Nat) (frame : Bytes) : Exec UInt32 := do
  cassert host.ndebug (5 < size)
  let maskStart ← mongrel2WsFrameGetMaskStart host size frame
  let retval ← readBlock frame maskStart 4
  return UInt32.ofNat (host.endian.value retval)

/-- The pointer argument is the index `start` of the block `frame`. -/
def mongrel2WsFrameUnmask (mask : UInt32) (size : Nat) (frame : Bytes) (start : Int) :
    Exec (Int × Bytes) := do
  let frame ← xorLoop (host.endian.bytes 4 mask.toNat) start size 0 frame
  return (0, frame)

/-! ## Frame creation -/

def mongrel2WsFrameGetSizeNecessary (maskPresent : Int) (payloadSize : UInt64) : UInt64 :=
  let retval : UInt64 := 0
  let retval := retval + 1
  let retval := retval + 1
  let retval := if maskPresent ≠ 0 then retval + 4 else retval
  let retval :=
    if payloadSize < 126 then retval
    else if 126 ≤ payloadSize ∧ payloadSize ≤ 65536 then retval + 2
    else retval + 8
  retval + payloadSize

/-- The C result, then `*size`, then `*buf`. -/
def mongrel2WsFrameCreate (useMask : Int) (payloadSize : UInt64) :
    Exec (Int × UInt64 × Option Bytes) := do
  let size := mongrel2WsFrameGetSizeNecessary useMask payloadSize
  if host.frameMemory size.toNat then
    let buf := List.replicate size.toNat 0
    let (_, buf) ← mongrel2WsFrameSetPayloadSize host size.toNat buf payloadSize
    if useMask ≠ 0 then
      let buf ← orByte buf 1 0x80
      return (0, size, some buf)
    else return (0, size, some buf)
  else return (-1, size, none)

end M2Handler.Websocket.Framing

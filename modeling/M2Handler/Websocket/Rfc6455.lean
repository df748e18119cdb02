import M2Handler.Machine.ByteOrder

/-!
# RFC 6455 frames

The base framing of the WebSocket protocol, written down from the standard and
without reference to any implementation: the two header octets, the shortest
length form in network order, the optional masking key and the data.
-/

namespace M2Handler.Websocket.Rfc6455

open Machine

structure MaskingKey where
  octets : Bytes
  four : octets.length = 4

/-- Octet `i` of the data is combined with octet `i mod 4` of the key. -/
def MaskingKey.apply (key : MaskingKey) (data : Bytes) : Bytes :=
  data.mapIdx fun index octet => octet ^^^ key.octets.getD (index % 4) 0

/-- A frame with no reserved bit set. -/
structure Frame where
  fin : Bool
  opcode : UInt8
  key : Option MaskingKey
  data : Bytes
  opcode_lt : opcode < 16

def lengthBits (length : Nat) : UInt8 :=
  if length ≤ 125 then UInt8.ofNat length
  else if length ≤ 65535 then 126
  else 127

/-- The octets that follow the second one when the length does not fit it. -/
def extendedLength (length : Nat) : Bytes :=
  if length ≤ 125 then []
  else if length ≤ 65535 then networkBytes 2 length
  else networkBytes 8 length

namespace Frame

def firstOctet (frame : Frame) : UInt8 := frame.opcode ||| if frame.fin then 0x80 else 0

def secondOctet (frame : Frame) : UInt8 :=
  lengthBits frame.data.length ||| if frame.key.isSome then 0x80 else 0

def header (frame : Frame) : Bytes :=
  frame.firstOctet :: frame.secondOctet :: extendedLength frame.data.length

def encode (frame : Frame) : Bytes :=
  match frame.key with
  | none => frame.header ++ frame.data
  | some key => frame.header ++ key.octets ++ key.apply frame.data

end Frame

def textFrame (data : Bytes) : Frame where
  fin := true
  opcode := 1
  key := none
  data := data
  opcode_lt := by decide

theorem encode_textFrame (data : Bytes) :
    (textFrame data).encode =
      0x81 :: lengthBits data.length :: (extendedLength data.length ++ data) := by
  simp [textFrame, Frame.encode, Frame.header, Frame.firstOctet, Frame.secondOctet]
  decide

end M2Handler.Websocket.Rfc6455

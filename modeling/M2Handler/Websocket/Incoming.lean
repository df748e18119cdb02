import M2Handler.Websocket.Creation
import M2Handler.Websocket.Rfc6455

/-!
# Frames from a client

The accessors are run on the octets of a standard client frame.  They read the
16-bit extended length in network order and the 64-bit one in host order, so a
little-endian host decodes exactly the frames without a 64-bit length.
-/

namespace M2Handler.Websocket.Framing

open Machine
open Rfc6455 (Frame MaskingKey lengthBits extendedLength)

/-- Masking by the standard is the xor of the loop. -/
theorem maskingKey_apply (key : MaskingKey) (data : Bytes) :
    key.apply data = xorFrom key.octets 0 data := by
  have from_index (start : Nat) :
      data.mapIdx (fun index octet => octet ^^^ key.octets.getD ((start + index) % 4) 0) =
        xorFrom key.octets start data := by
    induction data generalizing start with
    | nil => rfl
    | cons octet rest ih =>
        have shifted : (fun index (octet : UInt8) =>
            octet ^^^ key.octets.getD ((start + (index + 1)) % 4) 0) =
              fun index octet => octet ^^^ key.octets.getD ((start + 1 + index) % 4) 0 := by
          funext index octet
          rw [Nat.add_assoc start 1 index, Nat.add_comm 1 index]
        rw [List.mapIdx_cons, shifted, ih, xorFrom, Nat.add_zero]
  simpa [MaskingKey.apply] using from_index 0

theorem lengthBits_le (length : Nat) : lengthBits length ≤ 127 := by
  unfold lengthBits
  split
  · apply UInt8.le_iff_toNat_le.mpr
    simp only [UInt8.toNat_ofNat', UInt8.reduceToNat]
    omega
  · split <;> decide

def standardClass (length : Nat) : FType :=
  if length ≤ 125 then .small
  else if length ≤ 65535 then .medium
  else .large

theorem classOf_lengthBits (length : Nat) (bit : UInt8) (top : bit = 0x80 ∨ bit = 0) :
    classOf (lengthBits length ||| bit) = standardClass length := by
  obtain ⟨bare, masked, _⟩ := length_bits (lengthBits length) (lengthBits_le length)
  have seven : (lengthBits length ||| bit) &&& 0x7F = lengthBits length := by
    rcases top with rfl | rfl
    · exact masked
    · rw [UInt8.or_zero]
      exact bare
  unfold classOf standardClass
  rw [seven]
  unfold lengthBits
  split
  · rw [if_pos]
    apply UInt8.le_iff_toNat_le.mpr
    simp only [UInt8.toNat_ofNat', UInt8.reduceToNat]
    omega
  · split <;> rfl

/-- The layout of a standard frame sent by a client. -/
def clientLayout (frame : Frame) (key : MaskingKey) (sent : frame.key = some key) : Layout where
  first := frame.firstOctet
  second := frame.secondOctet
  extended := extendedLength frame.data.length
  maskField := key.octets
  payload := xorFrom key.octets 0 frame.data
  extended_length := by
    rw [Frame.secondOctet, sent, Option.isSome_some, if_pos rfl, classOf_lengthBits _ _ (.inl rfl)]
    unfold extendedLength standardClass
    split
    · rfl
    · split <;> simp [FType.extendedWidth]
  mask_length := by
    obtain ⟨_, _, _, masked⟩ :=
      length_bits (lengthBits frame.data.length) (lengthBits_le frame.data.length)
    rw [Frame.secondOctet, sent, Option.isSome_some, if_pos rfl, maskWidth, if_pos masked,
      key.four]

section Client

variable (frame : Frame) (key : MaskingKey) (sent : frame.key = some key)

theorem encode_client : frame.encode = (clientLayout frame key sent).bytes := by
  simp [Frame.encode, sent, clientLayout, Layout.bytes, Frame.header, maskingKey_apply]

theorem maskBit_client : maskBit (clientLayout frame key sent).second = 1 := by
  obtain ⟨_, _, _, masked⟩ :=
    length_bits (lengthBits frame.data.length) (lengthBits_le frame.data.length)
  change maskBit frame.secondOctet = 1
  rw [Frame.secondOctet, sent, Option.isSome_some, if_pos rfl, masked]

theorem payloadStart_client :
    (clientLayout frame key sent).payloadStart = (frame.header ++ key.octets).length := by
  simp only [Layout.payloadStart, clientLayout, Frame.header, List.length_append,
    List.length_cons]
  omega

theorem length_payload_client :
    (clientLayout frame key sent).payload.length = frame.data.length :=
  length_xorFrom _ _ _

/-- On a little-endian host the declared size is the length of the data exactly
when no 64-bit length is needed. -/
theorem declaredSize_client (host : Host) (little : host.endian = .little)
    (fits : frame.data.length ≤ 2147483647) :
    (clientLayout frame key sent).declaredSize host = UInt64.ofNat frame.data.length ↔
      frame.data.length ≤ 65535 := by
  have kind : classOf (clientLayout frame key sent).second = standardClass frame.data.length := by
    change classOf frame.secondOctet = _
    rw [Frame.secondOctet, sent, Option.isSome_some, if_pos rfl, classOf_lengthBits _ _ (.inl rfl)]
  have bits : (clientLayout frame key sent).second &&& 0x7F = lengthBits frame.data.length := by
    obtain ⟨_, masked, _⟩ :=
      length_bits (lengthBits frame.data.length) (lengthBits_le frame.data.length)
    change frame.secondOctet &&& 0x7F = _
    rw [Frame.secondOctet, sent, Option.isSome_some, if_pos rfl, masked]
  have extended : (clientLayout frame key sent).extended = extendedLength frame.data.length :=
    rfl
  rw [Layout.declaredSize, kind, bits, extended]
  unfold standardClass lengthBits extendedLength
  by_cases small : frame.data.length ≤ 125
  · simp only [if_pos small]
    refine iff_of_true ?_ (by omega)
    apply UInt64.toNat_inj.mp
    rw [UInt8.toNat_toUInt64, UInt8.toNat_ofNat', UInt64.toNat_ofNat']
    omega
  · by_cases medium : frame.data.length ≤ 65535
    · simp only [if_neg small, if_pos medium]
      refine iff_of_true ?_ medium
      have network : networkValue (networkBytes 2 frame.data.length) = frame.data.length := by
        rw [networkValue, networkBytes, List.reverse_reverse, littleValue_littleBytes]
        omega
      have two : networkBytes 2 frame.data.length =
          [UInt8.ofNat (frame.data.length / 256), UInt8.ofNat frame.data.length] :=
        rfl
      apply UInt64.toNat_inj.mp
      rw [two] at network ⊢
      rw [UInt16.toNat_toUInt64, htons_load, network, UInt64.toNat_ofNat']
      omega
    · simp only [if_neg small, if_neg medium]
      refine iff_of_false ?_ medium
      intro same
      have numbers := congrArg UInt64.toNat same
      have bounded := Endian.value_lt .little (networkBytes 8 frame.data.length)
      rw [length_networkBytes] at bounded
      rw [little, UInt64.toNat_ofNat', UInt64.toNat_ofNat', Nat.mod_eq_of_lt (by omega),
        Nat.mod_eq_of_lt (by omega)] at numbers
      have laidOut := Endian.bytes_value .little (networkBytes 8 frame.data.length)
      rw [numbers, length_networkBytes] at laidOut
      exact littleBytes_ne_networkBytes (by omega) (by omega) laidOut

end Client

/-- The three accessors recover the data of a client frame. -/
def Decodes (host : Host) (frame : Frame) (key : MaskingKey) : Prop :=
  ∃ mask unmasked,
    mongrel2WsFrameGetPayloadSize host frame.encode.length frame.encode =
        .ok (UInt64.ofNat frame.data.length) ∧
      mongrel2WsFrameGetPayload host frame.encode.length frame.encode =
        .ok (0, UInt64.ofNat frame.data.length, ((frame.header ++ key.octets).length : Int)) ∧
      mongrel2WsFrameGetMask host frame.encode.length frame.encode = .ok mask ∧
      mongrel2WsFrameUnmask host mask frame.data.length frame.encode
        (frame.header ++ key.octets).length = .ok (0, unmasked) ∧
      readBlock unmasked (frame.header ++ key.octets).length frame.data.length = .ok frame.data

/-- A little-endian host decodes a client frame exactly when its data is at
most 65535 bytes long. -/
theorem decodes_iff_length_le (host : Host) (little : host.endian = .little) (frame : Frame)
    (key : MaskingKey) (sent : frame.key = some key) (fits : frame.data.length ≤ 2147483647) :
    Decodes host frame key ↔ frame.data.length ≤ 65535 := by
  have declared := declaredSize_client frame key sent host little fits
  have start := payloadStart_client frame key sent
  have longStart : 6 ≤ (clientLayout frame key sent).payloadStart := by
    rw [start]
    simp only [Frame.header, List.length_append, List.length_cons, key.four]
    omega
  have long : 5 < (clientLayout frame key sent).bytes.length := by
    rw [Layout.length_bytes]
    omega
  have readSize := Layout.getPayloadSize host (clientLayout frame key sent)
    (show 1 < (clientLayout frame key sent).bytes.length by omega)
  have octets : host.endian.bytes 4 (UInt32.ofNat (host.endian.value key.octets)).toNat =
      key.octets := by
    have bounded := host.endian.value_lt key.octets
    have back := host.endian.bytes_value key.octets
    rw [key.four] at bounded back
    rw [UInt32.toNat_ofNat', Nat.mod_eq_of_lt (show _ < 2 ^ 32 from bounded), back]
  unfold Decodes
  rw [encode_client frame key sent, ← start]
  constructor
  · rintro ⟨mask, unmasked, size, _⟩
    rw [readSize] at size
    exact declared.mp (Except.ok.inj size)
  · intro short
    have exact := declared.mpr short
    refine ⟨UInt32.ofNat (host.endian.value key.octets),
      ((clientLayout frame key sent).withPayload frame.data).bytes, ?_, ?_, ?_, ?_, ?_⟩
    · rw [readSize, exact]
    · rw [Layout.getPayload host _ (by omega), exact]
    · exact Layout.getMask host _ (maskBit_client frame key sent) long
    · have same := length_payload_client frame key sent
      rw [Layout.unmask host _ _ (by omega) fits, octets, xorPrefix_all _ same.symm]
      change Except.ok (0, ((clientLayout frame key sent).withPayload
        (xorFrom key.octets 0 (xorFrom key.octets 0 frame.data))).bytes) = _
      rw [xorFrom_xorFrom]
    · exact ((clientLayout frame key sent).withPayload frame.data).read_payload

/-- A two-byte text frame is decoded. -/
theorem decodes_two :
    Decodes linuxHost ⟨true, 1, some ⟨[1, 2, 3, 4], rfl⟩, [72, 105], by decide⟩
      ⟨[1, 2, 3, 4], rfl⟩ :=
  (decodes_iff_length_le linuxHost rfl ⟨true, 1, some ⟨[1, 2, 3, 4], rfl⟩, [72, 105], by decide⟩
    ⟨[1, 2, 3, 4], rfl⟩ rfl (by decide)).mpr (by decide)

/-- The shortest frame with a 64-bit length is read as one of `2 ^ 40` bytes. -/
theorem decodes_not_65536 :
    ∃ (frame : Frame) (key : MaskingKey), frame.key = some key ∧ frame.data.length = 65536 ∧
      mongrel2WsFrameGetPayloadSize linuxHost frame.encode.length frame.encode =
        .ok 1099511627776 ∧
      ¬ Decodes linuxHost frame key := by
  obtain ⟨frame, key, sent, count⟩ : ∃ (frame : Frame) (key : MaskingKey),
      frame.key = some key ∧ frame.data.length = 65536 :=
    ⟨⟨true, 2, some ⟨[1, 2, 3, 4], rfl⟩, List.replicate 65536 0, by decide⟩,
      ⟨[1, 2, 3, 4], rfl⟩, rfl, List.length_replicate⟩
  have extended : (clientLayout frame key sent).extended = networkBytes 8 65536 := by
    change extendedLength frame.data.length = _
    rw [count, extendedLength, if_neg (by omega), if_neg (by omega)]
  have kind : classOf (clientLayout frame key sent).second = .large := by
    change classOf frame.secondOctet = _
    rw [Frame.secondOctet, sent, Option.isSome_some, if_pos rfl,
      classOf_lengthBits _ _ (.inl rfl), count]
    decide
  have declared : (clientLayout frame key sent).declaredSize linuxHost = 1099511627776 := by
    rw [Layout.declaredSize, kind, extended]
    change UInt64.ofNat (littleValue (networkBytes 8 65536)) = _
    decide
  have long : 1 < (clientLayout frame key sent).bytes.length := by
    rw [Layout.length_bytes, payloadStart_client, length_payload_client, count]
    omega
  have read := Layout.getPayloadSize linuxHost (clientLayout frame key sent) long
  rw [declared, ← encode_client frame key sent] at read
  refine ⟨frame, key, sent, count, read, ?_⟩
  rintro ⟨_, _, size, _⟩
  rw [read, count] at size
  cases size

end M2Handler.Websocket.Framing

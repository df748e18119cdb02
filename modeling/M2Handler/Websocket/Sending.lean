import M2Handler.Handler.Response
import M2Handler.Websocket.Reply
import M2Handler.Websocket.Rfc6455
import M2Handler.Websocket.RoundTrip

/-!
# Sending text frames

What `mongrel2_ws_reply` does in every build: it allocates and fills an
unmasked text frame, prints it in a build without `NDEBUG`, and hands it to
`mongrel2_reply`, whose result it ignores.  The frame is an RFC 6455 frame as
long as its data has at most 65535 bytes.
-/

namespace M2Handler.Websocket

open Machine Text Bstr Handler Framing

variable (host : Host)

/-! ## The frame -/

def textLayout (data : Bytes) : Layout := filled host false data opText

def textBytes (data : Bytes) : Bytes := (textLayout host data).bytes

theorem first_textLayout (data : Bytes) : (textLayout host data).first = 0x81 := by
  change firstByte opText = 0x81
  decide

theorem second_textLayout (data : Bytes) :
    (textLayout host data).second = lengthCode data.length :=
  rfl

theorem maskField_textLayout (data : Bytes) : (textLayout host data).maskField = [] := by
  apply List.eq_nil_of_length_eq_zero
  rw [textLayout, maskField_filled]
  rfl

theorem textBytes_eq (data : Bytes) :
    textBytes host data =
      0x81 :: lengthCode data.length :: (lengthField host data.length ++ data) := by
  rw [textBytes, Layout.bytes, first_textLayout, second_textLayout, maskField_textLayout,
    List.append_nil]
  rfl

theorem length_textBytes (data : Bytes) :
    (textBytes host data).length =
      2 + (sizeClass data.length).extendedWidth + data.length := by
  rw [textBytes_eq]
  simp only [List.length_cons, List.length_append, length_lengthField]
  omega

theorem length_textBytes_eq (data : Bytes) :
    (textBytes host data).length = frameLength false data.length := by
  rw [length_textBytes, frameLength]
  rfl

/-! ## The printout -/

theorem frameFlag_returns (layout : Layout) {len : Nat} (long : 0 < len) (bit shift : UInt8) :
    frameFlag host bit shift len layout.bytes = .ok ((layout.first &&& bit) >>> shift) := by
  simp [frameFlag, Layout.readByte_zero, long]

/-- The printout of a frame without a mask reads its payload as a C string, unless
the frame declares none. -/
theorem debug_unmasked {layout : Layout} (unmasked : maskBit layout.second = 0)
    (long : 1 < layout.bytes.length) :
    mongrel2WsFrameDebug host layout.bytes.length layout.bytes =
      if 0 < layout.declaredSize host then
        (readCString layout.bytes layout.payloadStart >>= fun _ => .ok ())
      else .ok () := by
  unfold mongrel2WsFrameDebug mongrel2WsFrameGetRsrvd1 mongrel2WsFrameGetRsrvd2
    mongrel2WsFrameGetRsrvd3
  rw [Layout.getFin host _ (by omega), Exec.ok_bind, frameFlag_returns host _ (by omega),
    Exec.ok_bind, frameFlag_returns host _ (by omega), Exec.ok_bind,
    frameFlag_returns host _ (by omega), Exec.ok_bind, Layout.getOpcode host _ (by omega),
    Exec.ok_bind, Layout.getMaskPresent host _ long, Exec.ok_bind,
    Layout.getPayloadType host _ long, Exec.ok_bind, unmasked, if_neg (by decide), Exec.pure_bind]
  dsimp only
  rw [Layout.getPayloadSize host _ long, Exec.ok_bind, Layout.getPayload host _ long, Exec.ok_bind]
  dsimp only
  by_cases positive : 0 < layout.declaredSize host
  · rw [if_pos positive]
    by_cases small : layout.declaredSize host < 60
    · rw [if_pos ⟨positive, small⟩, if_pos positive]
      rfl
    · rw [if_neg (fun both => small both.2), if_pos positive]
      rfl
  · rw [if_neg (fun both => positive both.1), if_neg positive, if_neg positive]
    rfl

/-- The frame of a text declares no payload when there is none, and by mistake at
65536 bytes. -/
theorem declares_payload_iff {data : Bytes} (fits : data.length ≤ 2147483647) :
    0 < (textLayout host data).declaredSize host ↔ ¬ (data.length = 65536 ∨ data = []) := by
  have declared : ((textLayout host data).declaredSize host).toNat =
      if data.length = 65536 then 0 else data.length :=
    declaredSize_created host false _ (by omega)
  have zero : (0 : UInt64).toNat = 0 := rfl
  rw [UInt64.lt_iff_toNat_lt, declared, zero, ← List.length_eq_zero_iff]
  split <;> omega

/-- The printout reads a payload that it does not take to be empty up to the
first NUL in it. -/
theorem debug_textBytes {data : Bytes} (fits : data.length ≤ 2147483647) :
    mongrel2WsFrameDebug host (textBytes host data).length (textBytes host data) =
      if data.length = 65536 ∨ data = [] ∨ 0 ∈ data then .ok () else .error .outOfBounds := by
  have long : 1 < (textBytes host data).length := by
    rw [length_textBytes]
    omega
  have start : (textBytes host data).drop ((textLayout host data).payloadStart : Int).toNat =
      data := by
    rw [Int.toNat_natCast, textBytes, Layout.bytes_eq_payload, List.append_nil,
      ← Layout.length_before_payload, List.drop_left]
    rfl
  have text : readCString (textBytes host data) (textLayout host data).payloadStart =
      if 0 ∈ data then .ok (cString data) else .error .outOfBounds := by
    rw [readCString, start]
    simp
  have positive := declares_payload_iff host fits
  have unmasked : maskBit (textLayout host data).second = 0 := maskBit_filled host false _ _
  have reads := debug_unmasked host unmasked long
  rw [← textBytes, text] at reads
  rw [reads]
  by_cases skipped : data.length = 65536 ∨ data = []
  · rw [if_neg (by rw [positive]; exact not_not.mpr skipped), if_pos]
    obtain long | empty := skipped
    · exact .inl long
    · exact .inr (.inl empty)
  · rw [if_pos (positive.mpr skipped)]
    by_cases nul : 0 ∈ data
    · rw [if_pos nul, if_pos (.inr (.inr nul))]
      rfl
    · rw [if_neg nul, if_neg]
      · rfl
      · rintro (long | empty | member)
        · exact skipped (.inl long)
        · exact skipped (.inr empty)
        · exact nul member

/-! ## One reply -/

def dataBytes (data : Option Bstring) : Bytes := (bdata data).getD []

theorem dataBytes_fits (data : Option Bstring) : (dataBytes data).length ≤ 2147483647 := by
  cases data with
  | none => exact Nat.zero_le _
  | some data => exact data.fits

theorem blength_eq_dataBytes (data : Option Bstring) :
    (blength data).toNat = (dataBytes data).length := by
  cases data <;> rfl

def hasMemory (data : Bytes) : Bool := host.frameMemory (textBytes host data).length

/-- The bytes pass the assertion of `set_payload_size` and the printout. -/
def passesDebug (data : Bytes) : Prop :=
  host.ndebug = true ∨ data ≠ [] ∧ (data.length = 65536 ∨ 0 ∈ data)

section Reply

variable {data : Option Bstring} (pubSocket : Option Mongrel2Socket)
  (req : Option Mongrel2Request)

theorem wsReply_no_memory (memory : hasMemory host (dataBytes data) = false) :
    mongrel2WsReply host pubSocket req data = .ok (-1, pubSocket) := by
  rw [hasMemory, length_textBytes_eq] at memory
  obtain ⟨size, refused⟩ := create_no_memory host false (dataBytes_fits data) memory
  have creating : mongrel2WsFrameCreate host 0 (UInt64.ofNat (dataBytes data).length) =
      .ok (-1, size, none) := refused
  rw [mongrel2WsReply]
  dsimp only
  rw [blength_eq_dataBytes, creating]
  rfl

variable (memory : hasMemory host (dataBytes data) = true)
include memory

/-- The frame is filled; what follows is the printout and the reply. -/
theorem wsReply_filled (asserted : host.ndebug = true ∨ dataBytes data ≠ []) :
    mongrel2WsReply host pubSocket req data = (do
      ifDebug host.ndebug (mongrel2WsFrameDebug host (textBytes host (dataBytes data)).length
        (textBytes host (dataBytes data)))
      let outgoing ← blk2bstr (some (textBytes host (dataBytes data)))
        (toInt (textBytes host (dataBytes data)).length)
      cassert host.ndebug (blength outgoing = (textBytes host (dataBytes data)).length)
      let (_, pubSocket) ← mongrel2Reply pubSocket req outgoing
      return (0, pubSocket)) := by
  have long : 1 < (textBytes host (dataBytes data)).length := by
    rw [length_textBytes]
    omega
  have assertion : host.ndebug = true ∨ 2 < frameLength false (dataBytes data).length := by
    obtain ndebug | nonempty := asserted
    · exact .inl ndebug
    · right
      have positive := List.length_pos_iff.mpr nonempty
      rw [frameLength]
      omega
  rw [hasMemory, length_textBytes_eq] at memory
  obtain ⟨allocated, returned, size⟩ :=
    create_ofNat host false (dataBytes_fits data) assertion memory
  rw [← length_textBytes_eq host] at size
  have creating : mongrel2WsFrameCreate host 0 (UInt64.ofNat (dataBytes data).length) =
      .ok (0, allocated, some (created host false (dataBytes data).length).bytes) := returned
  have filling := fillUnmasked_created host false (dataBytes data) opText long
  rw [fillUnmasked] at filling
  obtain ⟨⟨_, first⟩, firstEq, filling⟩ := Exec.bind_eq_ok.mp filling
  obtain ⟨⟨_, second⟩, secondEq, filling⟩ := Exec.bind_eq_ok.mp filling
  obtain ⟨⟨_, third⟩, thirdEq, filling⟩ := Exec.bind_eq_ok.mp filling
  have final : third = textBytes host (dataBytes data) := Except.ok.inj filling
  rw [mongrel2WsReply, blength_eq_dataBytes]
  dsimp only
  rw [creating, Exec.ok_bind]
  dsimp only
  rw [if_neg (by simp), deref_some, Exec.ok_bind, size]
  change (mongrel2WsFrameSetPayload host _ _ (dataBytes data) >>= _) = _
  rw [firstEq, Exec.ok_bind]
  dsimp only
  rw [secondEq, Exec.ok_bind]
  dsimp only
  rw [thirdEq, Exec.ok_bind]
  dsimp only
  rw [final]

/-- A build without `NDEBUG` stops in an assertion when there is no data, and else in the
printout. -/
theorem wsReply_stops (stopped : ¬ passesDebug host (dataBytes data)) :
    ∃ fault, fault.Halts ∧ (fault = .assertion ↔ dataBytes data = []) ∧
      mongrel2WsReply host pubSocket req data = .error fault := by
  obtain ⟨checked, printed⟩ := not_or.mp stopped
  have debug : host.ndebug = false := by simpa using checked
  by_cases empty : dataBytes data = []
  · have zero : UInt64.ofNat (dataBytes data).length = 0 := by
      rw [empty]
      rfl
    have size : mongrel2WsFrameGetSizeNecessary 0 0 = 2 := by decide
    have room : host.frameMemory 2 = true := by
      rw [hasMemory, length_textBytes, empty] at memory
      exact memory
    refine ⟨.assertion, trivial, iff_of_true rfl empty, ?_⟩
    rw [mongrel2WsReply, blength_eq_dataBytes]
    dsimp only
    rw [zero, mongrel2WsFrameCreate, size]
    dsimp only
    have two : (2 : UInt64).toNat = 2 := rfl
    rw [two, if_pos room, mongrel2WsFrameSetPayloadSize, debug]
    rfl
  · refine ⟨.outOfBounds, trivial, iff_of_false (by decide) empty, ?_⟩
    have silent : ¬ ((dataBytes data).length = 65536 ∨ dataBytes data = [] ∨
        0 ∈ dataBytes data) := by
      rintro (long | nothing | nul)
      · exact printed ⟨empty, .inl long⟩
      · exact empty nothing
      · exact printed ⟨empty, .inr nul⟩
    rw [wsReply_filled host pubSocket req memory (.inr empty), debug, ifDebug, if_neg (by simp),
      debug_textBytes host (dataBytes_fits data), if_neg silent]
    rfl

variable (passed : passesDebug host (dataBytes data))
include passed

/-- Past the printout the frame is copied and handed to the reply. -/
theorem wsReply_continues :
    mongrel2WsReply host pubSocket req data = (do
      let outgoing ← blk2bstr (some (textBytes host (dataBytes data)))
        (toInt (textBytes host (dataBytes data)).length)
      cassert host.ndebug (blength outgoing = (textBytes host (dataBytes data)).length)
      let (_, pubSocket) ← mongrel2Reply pubSocket req outgoing
      return (0, pubSocket)) := by
  have asserted : host.ndebug = true ∨ dataBytes data ≠ [] := by
    obtain ndebug | ⟨nonempty, _⟩ := passed
    · exact .inl ndebug
    · exact .inr nonempty
  have silent : ifDebug host.ndebug (mongrel2WsFrameDebug host
      (textBytes host (dataBytes data)).length (textBytes host (dataBytes data))) = .ok () := by
    unfold ifDebug
    split
    · rfl
    · rename_i checked
      obtain ndebug | ⟨_, readable⟩ := passed
      · exact absurd ndebug checked
      · rw [debug_textBytes host (dataBytes_fits data), if_pos]
        obtain long | nul := readable
        · exact .inl long
        · exact .inr (.inr nul)
  rw [wsReply_filled host pubSocket req memory asserted, silent, Exec.ok_bind]

/-- A frame of less than `INT_MAX` bytes becomes the payload of the reply. -/
theorem wsReply_replies (short : (textBytes host (dataBytes data)).length < 2147483647) :
    ∃ outgoing : Bstring, outgoing.data = textBytes host (dataBytes data) ∧
      mongrel2WsReply host pubSocket req data = (do
        let (_, pubSocket) ← mongrel2Reply pubSocket req (some outgoing)
        return (0, pubSocket)) := by
  have exact : toInt (textBytes host (dataBytes data)).length =
      (textBytes host (dataBytes data)).length :=
    toInt_of_nat (by omega)
  obtain ⟨outgoing, copied, _, bytes⟩ := blk2bstr_eq (textBytes host (dataBytes data))
    (textBytes host (dataBytes data)).length (by omega) (by omega) le_rfl
  rw [Int.toNat_natCast, List.take_length] at bytes
  have same : decide (blength (some outgoing) = (textBytes host (dataBytes data)).length) =
      true := by
    rw [decide_eq_true_eq, blength, Bstring.slen, bytes]
  refine ⟨outgoing, bytes, ?_⟩
  rw [wsReply_continues host pubSocket req memory passed, exact, copied, Exec.ok_bind, same,
    cassert_true, Exec.ok_bind]

/-- A frame of `INT_MAX` bytes is copied into a block of eight. -/
theorem wsReply_overruns (longest : (textBytes host (dataBytes data)).length = 2147483647) :
    mongrel2WsReply host pubSocket req data = .error .outOfBounds := by
  rw [wsReply_continues host pubSocket req memory passed, longest, toInt_of_nat (by omega)]
  change (blk2bstr _ 2147483647 >>= _) = _
  rw [blk2bstr_longest longest]
  rfl

/-- The length of a longer frame is negative as an `int`, so the frame is not
copied. -/
theorem wsReply_loses (long : 2147483647 < (textBytes host (dataBytes data)).length) :
    mongrel2WsReply host pubSocket req data = (do
      cassert host.ndebug false
      let (_, pubSocket) ← mongrel2Reply pubSocket req none
      return (0, pubSocket)) := by
  have fits := dataBytes_fits data
  have width := extendedWidth_le (sizeClass (dataBytes data).length)
  have length := length_textBytes host (dataBytes data)
  have negative : toInt (textBytes host (dataBytes data)).length < 0 := by
    unfold toInt
    omega
  have differs : decide (blength none = (textBytes host (dataBytes data)).length) = false := by
    rw [decide_eq_false_iff_not, blength]
    omega
  rw [wsReply_continues host pubSocket req memory passed, blk2bstr, if_pos negative,
    Exec.pure_bind, differs]

end Reply

/-- A reply that returns has sent nothing, or one message with the frame of its
data. -/
theorem wsReply_inv {pubSocket after : Option Mongrel2Socket} {req : Mongrel2Request}
    {data : Option Bstring} {code : Int}
    (returned : mongrel2WsReply host pubSocket (some req) data = .ok (code, after)) :
    after = pubSocket ∨
      ∃ socket uuid, pubSocket = some socket ∧ bdata req.uuid = some uuid ∧
        after = some (socket.push (responseHead req uuid ++ textBytes host (dataBytes data))) := by
  by_cases memory : hasMemory host (dataBytes data) = true
  · by_cases passed : passesDebug host (dataBytes data)
    · obtain short | longest | long :=
        lt_trichotomy (textBytes host (dataBytes data)).length 2147483647
      · obtain ⟨outgoing, bytes, replies⟩ :=
          wsReply_replies host pubSocket (some req) memory passed short
        rw [replies] at returned
        obtain ⟨⟨inner, final⟩, replied, same⟩ := Exec.bind_eq_ok.mp returned
        cases same
        obtain ⟨uuid, uuidText, ⟨_, unchanged⟩ | ⟨socket, p, socketEq, payload, _, pushed, _⟩⟩ :=
          reply_inv replied
        · exact .inl unchanged
        · cases payload
          rw [bytes] at pushed
          exact .inr ⟨socket, uuid, socketEq, uuidText, pushed⟩
      · rw [wsReply_overruns host pubSocket (some req) memory passed longest] at returned
        cases returned
      · rw [wsReply_loses host pubSocket (some req) memory passed long] at returned
        obtain ⟨_, _, returned⟩ := Exec.bind_eq_ok.mp returned
        obtain ⟨⟨inner, final⟩, replied, same⟩ := Exec.bind_eq_ok.mp returned
        cases same
        obtain ⟨uuid, _, ⟨_, unchanged⟩ | ⟨_, _, _, payload, _⟩⟩ := reply_inv replied
        · exact .inl unchanged
        · cases payload
    · obtain ⟨fault, -, -, stopped⟩ := wsReply_stops host pubSocket (some req) memory passed
      rw [stopped] at returned
      cases returned
  · rw [wsReply_no_memory host pubSocket (some req) (Bool.eq_false_iff.mpr memory)] at returned
    cases returned
    exact .inl rfl

/-- A reply ends. -/
theorem wsReply_halts {pubSocket : Option Mongrel2Socket} {req : Mongrel2Request}
    {data : Option Bstring} {fault : Fault}
    (faulted : mongrel2WsReply host pubSocket (some req) data = .error fault) : fault.Halts := by
  have inner {payload : Option Bstring} {fault : Fault}
      (stopped : (do
        let (_, pubSocket) ← mongrel2Reply pubSocket (some req) payload
        return ((0 : Int), pubSocket)) = .error fault) : fault.Halts := by
    cases replied : mongrel2Reply pubSocket (some req) payload with
    | error first =>
        rw [replied] at stopped
        cases stopped
        exact reply_halts replied
    | ok result =>
        rw [replied] at stopped
        cases stopped
  by_cases memory : hasMemory host (dataBytes data) = true
  · by_cases passed : passesDebug host (dataBytes data)
    · obtain short | longest | long :=
        lt_trichotomy (textBytes host (dataBytes data)).length 2147483647
      · obtain ⟨outgoing, -, replies⟩ :=
          wsReply_replies host pubSocket (some req) memory passed short
        rw [replies] at faulted
        exact inner faulted
      · rw [wsReply_overruns host pubSocket (some req) memory passed longest] at faulted
        cases faulted
        trivial
      · rw [wsReply_loses host pubSocket (some req) memory passed long] at faulted
        cases checked : host.ndebug with
        | true =>
            rw [checked, cassert_ndebug, Exec.ok_bind] at faulted
            exact inner faulted
        | false =>
            rw [checked] at faulted
            cases faulted
            trivial
    · obtain ⟨other, halts, -, stopped⟩ := wsReply_stops host pubSocket (some req) memory passed
      rw [stopped] at faulted
      cases faulted
      exact halts
  · rw [wsReply_no_memory host pubSocket (some req) (Bool.eq_false_iff.mpr memory)] at faulted
    cases faulted

/-- A reply that can be sent is sent. -/
theorem wsReply_sends (data : Option Bstring) (memory : hasMemory host (dataBytes data) = true)
    (passed : passesDebug host (dataBytes data)) (req : Mongrel2Request) {uuid : Bytes}
    (uuidText : bdata req.uuid = some uuid) (socket : Mongrel2Socket)
    (headShort : (responseHead req uuid).length ≤ 1073741822)
    (fits : (responseHead req uuid).length + (textBytes host (dataBytes data)).length <
      2147483647) :
    mongrel2WsReply host (some socket) (some req) data =
      .ok (0, some (socket.push (responseHead req uuid ++ textBytes host (dataBytes data)))) := by
  obtain ⟨outgoing, bytes, replies⟩ :=
    wsReply_replies host (some socket) (some req) memory passed (by omega)
  rw [replies, reply_sends uuidText socket outgoing headShort (by rw [bytes]; exact fits), bytes]
  rfl

end M2Handler.Websocket

import M2Handler.Reporting.WsReply
import M2Handler.Websocket.RoundTrip

/-!
# Assertions

A build without `NDEBUG` checks the lengths that the frame functions are given.
Every frame passes the checks except the one without a mask and without a payload,
whose two bytes `set_payload_size` refuses; a reply has the printout of its frame to
pass as well.
-/

namespace M2Handler.Websocket

open Machine Bstr Handler

namespace Framing

variable (host : Host)

def readAll (useMask : Bool) (size : Nat) (frame : Bytes) : Exec Unit := do
  let _ ← mongrel2WsFrameGetFin host size frame
  let _ ← mongrel2WsFrameGetOpcode host size frame
  let _ ← mongrel2WsFrameGetMaskPresent host size frame
  let _ ← mongrel2WsFrameGetPayloadType host size frame
  let _ ← mongrel2WsFrameGetPayloadSize host size frame
  let _ ← mongrel2WsFrameGetPayload host size frame
  if useMask then
    let _ ← mongrel2WsFrameGetMask host size frame
    return ()
  else return ()

/-- A frame is created, filled and read; without memory there is nothing to fill. -/
def buildAndRead (useMask : Bool) (payload : Bytes) (opcode mask : UInt32) : Exec Unit := do
  let (retval, size, buffer) ←
    mongrel2WsFrameCreate host (flag useMask) (UInt64.ofNat payload.length)
  if retval ≠ 0 then return ()
  else
    let buffer ← deref buffer
    let frame ← fill host useMask size.toNat buffer payload opcode mask
    readAll host useMask size.toNat frame

theorem readAll_layout (layout : Layout) {useMask : Bool} {size : Nat} (long : 1 < size)
    (masked : useMask = true → maskBit layout.second = 1 ∧ 5 < size) :
    readAll host useMask size layout.bytes = .ok () := by
  rw [readAll, Layout.getFin host layout (by omega), Exec.ok_bind,
    Layout.getOpcode host layout (by omega), Exec.ok_bind, Layout.getMaskPresent host layout long,
    Exec.ok_bind, Layout.getPayloadType host layout long, Exec.ok_bind,
    Layout.getPayloadSize host layout long, Exec.ok_bind, Layout.getPayload host layout long,
    Exec.ok_bind]
  cases useMask with
  | false => rfl
  | true =>
      obtain ⟨bit, field⟩ := masked rfl
      rw [if_pos rfl, Layout.getMask host layout bit field, Exec.ok_bind]
      rfl

section Build

variable (useMask : Bool) {payload : Bytes} (opcode mask : UInt32)
  (fits : payload.length ≤ 2147483647)
include fits

theorem build_no_memory (memory : host.frameMemory (frameLength useMask payload.length) = false) :
    buildAndRead host useMask payload opcode mask = .ok () := by
  obtain ⟨size, refused⟩ := create_no_memory host useMask fits memory
  rw [buildAndRead, refused]
  rfl

variable (memory : host.frameMemory (frameLength useMask payload.length) = true)
include memory

/-- A frame of more than two bytes passes every assertion. -/
theorem build_returns (long : useMask = true ∨ payload ≠ []) :
    buildAndRead host useMask payload opcode mask = .ok () := by
  have start := payloadStart_created host useMask payload.length
  have asserted : 2 < frameLength useMask payload.length := by
    rw [frameLength]
    rcases long with rfl | nonempty
    · rw [if_pos rfl]
      omega
    · have positive := List.length_pos_iff.mpr nonempty
      omega
  obtain ⟨allocated, returned, size⟩ := create_ofNat host useMask fits (.inr asserted) memory
  rw [frameLength, ← start] at size
  rw [buildAndRead, returned, Exec.ok_bind]
  dsimp only
  rw [if_neg (by decide), deref_some, Exec.ok_bind,
    fill_created host useMask payload opcode mask fits size, Exec.ok_bind]
  refine readAll_layout host _ (by omega) ?_
  rintro rfl
  rw [second_finished, maskBit_secondByte, if_pos rfl, size, start, if_pos rfl]
  exact ⟨rfl, by omega⟩

omit fits in
/-- The frame without a mask and without a payload does not. -/
theorem build_asserts (debug : host.ndebug = false) (short : ¬ (useMask = true ∨ payload ≠ [])) :
    buildAndRead host useMask payload opcode mask = .error .assertion := by
  obtain ⟨unmasked, empty⟩ := not_or.mp short
  rw [Bool.not_eq_true] at unmasked
  rw [not_not] at empty
  subst unmasked empty
  have size : mongrel2WsFrameGetSizeNecessary (flag false) (UInt64.ofNat ([] : Bytes).length) = 2 :=
    rfl
  have room : host.frameMemory (2 : UInt64).toNat = true := memory
  have failed : cassert host.ndebug (decide (2 < (2 : UInt64).toNat)) = .error .assertion := by
    rw [debug]
    rfl
  rw [buildAndRead, mongrel2WsFrameCreate, size]
  dsimp only
  rw [if_pos room, mongrel2WsFrameSetPayloadSize, failed]
  rfl

end Build

end Framing

open Framing Reporting

/-- A reply to a request with an identifier reaches its end unless the frame does not
pass the printout or the message is one byte too long for a string. -/
theorem wsReply_reaches_end_iff (host : Host) {data : Bstring}
    (fits : data.data.length ≤ 2147483633) (socket : Mongrel2Socket) {req : Mongrel2Request}
    {uuid : Bytes} (uuidText : bdata req.uuid = some uuid) :
    (∃ result, mongrel2WsReply host (some socket) (some req) (some data) = .ok result) ↔
      hasMemory host data.data = false ∨ passesDebug host data.data ∧
        ¬ ((responseHead req uuid).length ≤ 1073741822 ∧
          (responseHead req uuid).length + (textBytes host data.data).length = 2147483647) := by
  have long : (textBytes host data.data).length ≤ 2147483643 := by
    have total := frameLength_le false data.data.length
    have width := extendedWidth_le (sizeClass data.data.length)
    rw [length_textBytes]
    omega
  constructor
  · rintro ⟨result, returned⟩
    by_cases memory : hasMemory host data.data = true
    · right
      by_contra unmet
      have stops : Stops host (dataBytes (some data)) (some socket) req := by
        rcases not_and_or.mp unmet with unprinted | overrun
        · exact .inl unprinted
        · obtain ⟨head, total⟩ := not_not.mp overrun
          exact .inr (.inr (.inr (.inr ⟨uuid, uuidText, head, .inl total⟩)))
      obtain ⟨fault, stopped, -⟩ := wsReply_ends host (some data) memory stops
      rw [stopped] at returned
      cases returned
    · exact .inl (Bool.eq_false_iff.mpr memory)
  · intro condition
    by_cases memory : hasMemory host data.data = true
    · rcases condition with refused | ⟨passed, fitting⟩
      · rw [memory] at refused
        cases refused
      · have goes : ¬ Stops host (dataBytes (some data)) (some socket) req := by
          have bytes : dataBytes (some data) = data.data := rfl
          rw [Stops, bytes]
          rintro (unprinted | equal | ⟨-, more⟩ | nameless | ⟨other, otherText, head, total⟩)
          · exact unprinted passed
          · omega
          · omega
          · rw [uuidText] at nameless
            cases nameless
          · rw [uuidText] at otherText
            cases otherText
            rcases total with total | ⟨-, impossible⟩
            · exact fitting ⟨head, total⟩
            · cases impossible
        obtain ⟨after, _, returned, _⟩ := wsReply_goes host (some data) memory goes
        exact ⟨_, returned⟩
    · exact ⟨_, wsReply_no_memory host (some socket) (some req) (Bool.eq_false_iff.mpr memory)⟩

/-- In a build without `NDEBUG`, no assertion fails while a frame is built and read
exactly when the frame has more than two bytes, and a reply reaches its end exactly when
the printout does and the message is not one byte too long. -/
theorem assertions_hold_iff (host : Host) (debug : host.ndebug = false) (useMask : Bool)
    (payload : Bytes) (fits : payload.length ≤ 2147483633) (opcode mask : UInt32) (data : Bstring)
    (dataFits : data.data.length ≤ 2147483633) (socket : Mongrel2Socket) (req : Mongrel2Request)
    {uuid : Bytes} (uuidText : bdata req.uuid = some uuid) :
    (buildAndRead host useMask payload opcode mask ≠ .error .assertion ↔
        host.frameMemory (frameLength useMask payload.length) = false ∨ useMask = true ∨
          payload ≠ []) ∧
      ((∃ result, mongrel2WsReply host (some socket) (some req) (some data) = .ok result) ↔
        hasMemory host data.data = false ∨
          data.data ≠ [] ∧ (data.data.length = 65536 ∨ 0 ∈ data.data) ∧
            ¬ ((responseHead req uuid).length ≤ 1073741822 ∧
              (responseHead req uuid).length + (textBytes host data.data).length =
                2147483647)) := by
  constructor
  · constructor
    · intro holds
      by_contra unmet
      obtain ⟨memory, short⟩ := not_or.mp unmet
      rw [Bool.not_eq_false] at memory
      exact holds (build_asserts host useMask opcode mask memory debug short)
    · intro condition failed
      have returned : buildAndRead host useMask payload opcode mask = .ok () := by
        by_cases memory : host.frameMemory (frameLength useMask payload.length) = true
        · rcases condition with refused | long
          · rw [memory] at refused
            cases refused
          · exact build_returns host useMask opcode mask (by omega) memory long
        · exact build_no_memory host useMask opcode mask (by omega)
            (Bool.eq_false_iff.mpr memory)
      rw [returned] at failed
      cases failed
  · have passes : passesDebug host data.data ↔
        data.data ≠ [] ∧ (data.data.length = 65536 ∨ 0 ∈ data.data) := by
      rw [passesDebug, debug]
      simp only [Bool.false_eq_true, false_or]
    rw [wsReply_reaches_end_iff host dataFits socket uuidText, passes, and_assoc]

def debugHost : Host := { linuxHost with ndebug := false }

/-- One NUL byte, in a masked frame and in a reply. -/
theorem assertions_hold_nul :
    buildAndRead debugHost true [0] 1 5 ≠ .error .assertion ∧
      ∃ result, mongrel2WsReply debugHost (some openSocket) (some requestSeven)
        (some ⟨8, [0], by decide⟩) = .ok result := by
  have head : responseHead requestSeven [117] = envelope [117] [55] :=
    responseHead_canonical canonical_requestSeven
  obtain ⟨build, reply⟩ := assertions_hold_iff debugHost rfl true [0] (by decide) 1 5
    ⟨8, [0], by decide⟩ (by decide) openSocket requestSeven uuid_requestSeven
  refine ⟨build.mpr (.inr (.inl rfl)), reply.mpr (.inr ⟨by decide, .inr List.mem_cons_self, ?_⟩)⟩
  rw [head, length_textBytes]
  decide

/-- An empty payload without a mask fails the assertion of `set_payload_size`, in a
reply too. -/
theorem assertion_fails_empty :
    buildAndRead debugHost false [] 1 0 = .error .assertion ∧
      mongrel2WsReply debugHost (some openSocket) (some requestSeven)
        (some ⟨8, [], by decide⟩) = .error .assertion :=
  ⟨rfl, rfl⟩

end M2Handler.Websocket

import M2Handler.Websocket.Sending

/-!
# Replies on the wire

The bytes behind the envelope of a reply, compared with the frame of RFC 6455.
The length class is one short of the standard at `65536`, and the eight bytes
of a large length keep the order of the host.
-/

namespace M2Handler.Websocket

open Machine Text Bstr Handler Framing

variable (host : Host)

/-- The text frame is the one of the standard exactly up to 65535 bytes of
data. -/
theorem textBytes_eq_encode_iff (little : host.endian = .little) (data : Bytes)
    (fits : data.length ≤ 2147483647) :
    textBytes host data = (Rfc6455.textFrame data).encode ↔ data.length ≤ 65535 := by
  rw [textBytes_eq, Rfc6455.encode_textFrame]
  unfold lengthCode lengthField Rfc6455.lengthBits Rfc6455.extendedLength
  by_cases small : data.length ≤ 125
  · simp only [if_pos small, true_iff]
    omega
  · by_cases medium : data.length ≤ 65535
    · have low : data.length % 65536 = data.length := Nat.mod_eq_of_lt (by omega)
      simp only [if_neg small, if_pos medium, if_pos (show data.length ≤ 65536 by omega), low,
        true_iff]
      exact medium
    · simp only [if_neg small, medium, iff_false]
      intro same
      by_cases boundary : data.length ≤ 65536
      · rw [if_pos boundary, if_pos boundary] at same
        have second := congrArg (fun bytes : Bytes => bytes.tail.head?) same
        cases second
      · rw [if_neg boundary, if_neg boundary, little] at same
        have rest := congrArg (fun bytes : Bytes => (bytes.drop 2).take 8) same
        have left : (littleBytes 8 data.length ++ data).take 8 = littleBytes 8 data.length :=
          List.take_left' (length_littleBytes 8 _)
        have right : (networkBytes 8 data.length ++ data).take 8 = networkBytes 8 data.length :=
          List.take_left' (length_networkBytes 8 _)
        have equal : littleBytes 8 data.length = networkBytes 8 data.length := by
          rw [← left, ← right]
          exact rest
        exact littleBytes_ne_networkBytes (by omega) (by omega) equal

/-- A message that a reply hands to `zmq_sendmsg` is the envelope and the
RFC 6455 frame of the data exactly up to 65535 bytes of data. -/
theorem wsReply_rfc_iff (little : host.endian = .little) {socket after : Mongrel2Socket}
    {req : Mongrel2Request} {uuid : Bytes} (uuidText : bdata req.uuid = some uuid)
    (data : Bstring) {code : Int} {message : Bytes} {accepted : Bool}
    (returned : mongrel2WsReply host (some socket) (some req) (some data) =
      .ok (code, some after))
    (handed : after.calls = socket.calls ++ [(message, accepted)]) :
    message = responseHead req uuid ++ (Rfc6455.textFrame data.data).encode ↔
      data.data.length ≤ 65535 := by
  obtain unchanged | ⟨_, _, socketEq, otherText, pushed⟩ := wsReply_inv host returned
  · cases unchanged
    exact absurd handed.symm (by simp)
  · cases socketEq
    rw [uuidText] at otherText
    cases otherText
    cases pushed
    have sent : message = responseHead req uuid ++ textBytes host data.data := by
      have last := congrArg List.getLast? handed
      simp only [Mongrel2Socket.push, List.getLast?_concat, Option.some.injEq,
        Prod.mk.injEq] at last
      exact last.1.symm
    rw [sent, List.append_cancel_left_eq]
    exact textBytes_eq_encode_iff host little data.data data.fits

theorem wsReply_rfc_two :
    ∃ after message accepted,
      mongrel2WsReply linuxHost (some openSocket) (some requestSeven)
        (some ⟨8, [104, 105], by decide⟩) = .ok (0, some after) ∧
      after.calls = openSocket.calls ++ [(message, accepted)] ∧
      (message = responseHead requestSeven [117] ++ (Rfc6455.textFrame [104, 105]).encode ↔
        [104, 105].length ≤ 65535) := by
  have returned := wsReply_sends linuxHost (some ⟨8, [104, 105], by decide⟩) rfl (.inl rfl)
    requestSeven uuid_requestSeven openSocket (by decide) (by decide)
  have handed : (openSocket.push (responseHead requestSeven [117] ++
      textBytes linuxHost [104, 105])).calls = openSocket.calls ++
        [(responseHead requestSeven [117] ++ textBytes linuxHost [104, 105], openSocket.next)] :=
    rfl
  exact ⟨_, _, _, returned, handed,
    wsReply_rfc_iff linuxHost rfl uuid_requestSeven ⟨8, [104, 105], by decide⟩ returned handed⟩

/-- 65536 bytes of data do not arrive as an RFC 6455 frame. -/
theorem wsReply_not_rfc_65536 :
    ∃ (data : Bstring) (after : Mongrel2Socket) (message : Bytes) (accepted : Bool),
      data.data = List.replicate 65536 0 ∧
      mongrel2WsReply linuxHost (some openSocket) (some requestSeven) (some data) =
        .ok (0, some after) ∧
      after.calls = openSocket.calls ++ [(message, accepted)] ∧
      message ≠ responseHead requestSeven [117] ++ (Rfc6455.textFrame data.data).encode := by
  have count : (List.replicate 65536 (0 : UInt8)).length = 65536 := List.length_replicate
  have head : (responseHead requestSeven [117]).length = 7 := by decide
  have frame := length_textBytes linuxHost (List.replicate 65536 0)
  have width := extendedWidth_le (sizeClass (List.replicate 65536 (0 : UInt8)).length)
  have returned := wsReply_sends linuxHost
    (some ⟨131072, List.replicate 65536 0, by rw [count]; decide⟩) rfl (.inl rfl) requestSeven
    uuid_requestSeven openSocket (by rw [head]; decide) (by
      change _ + (textBytes linuxHost (List.replicate 65536 0)).length < _
      omega)
  refine ⟨_, _, _, _, rfl, returned, rfl, ?_⟩
  intro same
  have short := (textBytes_eq_encode_iff linuxHost rfl (List.replicate 65536 0)
    (by rw [count]; decide)).mp (List.append_cancel_left same)
  rw [count] at short
  omega

end M2Handler.Websocket

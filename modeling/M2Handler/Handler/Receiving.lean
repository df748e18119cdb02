import M2Handler.Handler.Parsing

/-!
# Received requests

A message of the pull socket is copied into a string and parsed.  The lengths
that the parser declares without a value are whatever the stack holds then.
-/

namespace M2Handler.Handler

open Machine Text Bstr

/-- A message on the pull socket, and the first contents of the two lengths. -/
structure Arrival where
  message : Bytes
  headerlen : Int32
  bodylen : Int32

variable (host : Host)

/-- A failed `zmq_recvmsg` leaves the message empty. -/
def mongrel2Recv (arrival : Arrival) : Exec (Option Mongrel2Request) := do
  let rawRequestBstr ← blk2bstr (some arrival.message) (toInt arrival.message.length)
  mongrel2ParseRequest host arrival.headerlen arrival.bodylen rawRequestBstr

/-- A message shorter than `INT_MAX` is parsed as it is. -/
theorem recv_eq (arrival : Arrival) (short : arrival.message.length < 2147483647) :
    ∃ raw : Bstring, raw.data = arrival.message ∧
      mongrel2Recv host arrival =
        mongrel2ParseRequest host arrival.headerlen arrival.bodylen (some raw) := by
  have length : toInt arrival.message.length = arrival.message.length := toInt_of_nat (by omega)
  obtain ⟨raw, copied, -, bytes⟩ := blk2bstr_eq arrival.message arrival.message.length
    (by omega) (by omega) le_rfl
  rw [Int.toNat_natCast, List.take_length] at bytes
  refine ⟨raw, bytes, ?_⟩
  rw [mongrel2Recv, length, copied, Exec.ok_bind]

/-- Where overflows wrap, a message shorter than `INT_MAX` is parsed or refused. -/
theorem recv_returns (wraps : host.trapv = false) (arrival : Arrival)
    (short : arrival.message.length < 2147483647) :
    ∃ received, mongrel2Recv host arrival = .ok received := by
  obtain ⟨raw, bytes, received⟩ := recv_eq host arrival short
  rw [← bytes] at short
  obtain ⟨u, c, p, -, -, -, whole⟩ := parse_eq host raw
  obtain ⟨headers, headersCut⟩ :=
    cutNetstring_returns host wraps short (headerPlace_fits raw) arrival.headerlen
  rw [received, whole, headersCut, Exec.ok_bind]
  cases headers with
  | none => exact ⟨none, rfl⟩
  | some headers =>
      have sbody : arith host.trapv (headers.1 + 1) = .ok (toInt (headers.1 + 1)) := by
        rw [wraps]
        exact arith_wraps _
      obtain ⟨netstring, bodyCut⟩ :=
        cutNetstring_returns host wraps short (isInt_toInt (headers.1 + 1)) arrival.bodylen
      dsimp only
      rw [sbody, Exec.ok_bind, bodyCut, Exec.ok_bind]
      cases netstring with
      | none => exact ⟨none, rfl⟩
      | some netstring => exact ⟨_, rfl⟩

/-- A received request was parsed. -/
theorem recv_parsed {arrival : Arrival} {req : Mongrel2Request}
    (received : mongrel2Recv host arrival = .ok (some req)) :
    ∃ raw, mongrel2ParseRequest host arrival.headerlen arrival.bodylen raw = .ok (some req) := by
  obtain ⟨raw, -, parsed⟩ := Exec.bind_eq_ok.mp received
  exact ⟨raw, parsed⟩

/-- A parsed request has all its strings, and its headers are not loaded. -/
theorem parse_held {headerlen bodylen : Int32} {raw : Option Bstring} {req : Mongrel2Request}
    (parsed : mongrel2ParseRequest host headerlen bodylen raw = .ok (some req)) :
    ∃ uuid rawHeaders body : Bstring, req.uuid = some uuid ∧ req.rawHeaders = some rawHeaders ∧
      req.body = some body ∧ req.headers = none ∧ rawHeaders.data.length < 2147483647 ∧
      body.data.length < 2147483647 := by
  have counted {raw text : Bstring} {place stop : Int} {initial : Int32} (fits : IsInt place)
      (cut : cutNetstring host (some raw) place initial = .ok (some (stop, text))) :
      text.data.length < 2147483647 := by
    obtain ⟨count, -, served, -, bytes⟩ := cutNetstring_inv host raw fits cut
    have short := served.short
    have most := List.length_take_le count.toNat (raw.data.drop (behind raw.data place 58).toNat)
    rw [bytes]
    omega
  cases raw with
  | none => cases parsed
  | some raw =>
      obtain ⟨u, c, p, -, -, -, whole⟩ := parse_eq host raw
      rw [whole] at parsed
      obtain ⟨headers, headersCut, parsed⟩ := Exec.bind_eq_ok.mp parsed
      cases headers with
      | none => cases parsed
      | some headers =>
          obtain ⟨sbody, sbodyEq, parsed⟩ := Exec.bind_eq_ok.mp parsed
          obtain ⟨netstring, bodyCut, parsed⟩ := Exec.bind_eq_ok.mp parsed
          cases netstring with
          | none => cases parsed
          | some netstring =>
              cases parsed
              exact ⟨u, headers.2, netstring.2, rfl, rfl, rfl, rfl,
                counted (headerPlace_fits raw) headersCut, counted (arith_isInt sbodyEq) bodyCut⟩

theorem owned_of_cutNetstring {raw : Option Bstring} {start stop : Int} {initial : Int32}
    {text : Bstring} (cut : cutNetstring host raw start initial = .ok (some (stop, text))) :
    Owned text := by
  obtain ⟨⟨colon, digits⟩, -, cut⟩ := Exec.bind_eq_ok.mp cut
  obtain ⟨number, -, cut⟩ := Exec.bind_eq_ok.mp cut
  obtain ⟨first, -, cut⟩ := Exec.bind_eq_ok.mp cut
  obtain ⟨last, -, cut⟩ := Exec.bind_eq_ok.mp cut
  obtain ⟨count, -, cut⟩ := Exec.bind_eq_ok.mp cut
  obtain ⟨made, middle, cut⟩ := Exec.bind_eq_ok.mp cut
  cases made with
  | none => cases cut
  | some made =>
      dsimp only at cut
      split at cut
      · cases cut
      · cases cut
        exact owned_of_bmidstr middle

/-- The body of a parsed request is a string of its own. -/
theorem parse_owned {headerlen bodylen : Int32} {raw : Option Bstring} {req : Mongrel2Request}
    (parsed : mongrel2ParseRequest host headerlen bodylen raw = .ok (some req)) :
    ∃ body, req.body = some body ∧ Owned body := by
  cases raw with
  | none => cases parsed
  | some raw =>
      obtain ⟨u, c, p, -, -, -, whole⟩ := parse_eq host raw
      rw [whole] at parsed
      obtain ⟨headers, -, parsed⟩ := Exec.bind_eq_ok.mp parsed
      cases headers with
      | none => cases parsed
      | some headers =>
          obtain ⟨sbody, -, parsed⟩ := Exec.bind_eq_ok.mp parsed
          obtain ⟨netstring, bodyCut, parsed⟩ := Exec.bind_eq_ok.mp parsed
          cases netstring with
          | none => cases parsed
          | some netstring =>
              cases parsed
              exact ⟨netstring.2, rfl, owned_of_cutNetstring host bodyCut⟩

end M2Handler.Handler

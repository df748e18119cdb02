import M2Handler.Handler.Parsing

/-!
# Ranges of the parser's numbers

The parser adds the lengths that it has scanned to its places before it compares
anything with the length of the message.  The sums are those of whole numbers exactly
when each colon that is found has a number in front of it that keeps the end of the
netstring an `int`.
-/

namespace M2Handler.Handler

open Machine Text Bstr

variable (host : Host)

/-- The same build, where a signed overflow stops the run. -/
def trapping : Host := { host with trapv := true }

/-- The number at the front of the text, if there is one, is an `int`. -/
def Representable (text : Bytes) : Prop :=
  ∀ number, scanInt (cString text) = some number → IsInt number

/-- No computed `int` is out of range, and a message with a number out of range is
rejected. -/
structure InRange (raw : Bstring) : Prop where
  computed : ∀ headerlen bodylen,
    mongrel2ParseRequest (trapping host) headerlen bodylen (some raw) ≠ .error .signedOverflow
  scanned : ∀ headerlen bodylen req,
    mongrel2ParseRequest host headerlen bodylen (some raw) = .ok (some req) →
      Representable (connIdText raw.data) ∧ Representable (headerText raw.data) ∧
        Representable (bodyText raw.data (sscanfInt host (headerText raw.data) headerlen).toInt)

/-- A colon that is found has a number in front of it, and this many bytes behind it end
at an `int`. -/
def SumFits (raw : Bytes) (place : Int) : Prop :=
  58 ∈ restFrom raw place → Numbered (textBefore raw place 58) ∧
    behind raw place 58 + (sscanfInt host (textBefore raw place 58) 0).toInt ≤ 2147483647

/-- The condition on the message: both sums fit, headers that the message can serve do
not end at `INT_MAX`, and if it can serve a body too, the three numbers are `int`s. -/
structure Bounded (raw : Bytes) : Prop where
  header : SumFits host raw (headerPlace raw)
  next : ∀ count, Served host raw (headerPlace raw) count → headerStart raw + count < 2147483647
  body : ∀ count, Served host raw (headerPlace raw) count → SumFits host raw (bodyPlace raw count)
  numbers : ∀ count length, Served host raw (headerPlace raw) count →
    Served host raw (bodyPlace raw count) length →
      Representable (connIdText raw) ∧ Representable (headerText raw) ∧
        Representable (bodyText raw count)

theorem served_trapping {raw : Bytes} {place count : Int} :
    Served (trapping host) raw place count ↔ Served host raw place count := by
  constructor
  · rintro ⟨taken, nonneg, inside, short⟩
    exact ⟨taken, nonneg, inside, short⟩
  · rintro ⟨taken, nonneg, inside, short⟩
    exact ⟨taken, nonneg, inside, short⟩

/-! ## One netstring -/

section Netstring

variable (raw : Bstring) {place : Int} (fits : IsInt place)
include fits

theorem cutNetstring_fits (sum : SumFits host raw.data place) (initial : Int32) :
    cutNetstring (trapping host) (some raw) place initial ≠ .error .signedOverflow := by
  intro overflowed
  generalize counted : (sscanfInt (trapping host) (textBefore raw.data place 58) initial).toInt =
    count
  have passes : behind raw.data place 58 + count ≤ 2147483647 := by
    by_cases found : 58 ∈ restFrom raw.data place
    · obtain ⟨number, bound⟩ := sum found
      have same := sscanfInt_initial host number 0 initial
      rw [same] at bound
      rw [← counted]
      exact bound
    · have small := isInt_toInt32
        (sscanfInt (trapping host) (textBefore raw.data place 58) initial)
      rw [counted] at small
      unfold IsInt intMin intMax at small
      rw [behind_missing found]
      omega
  by_cases served : Served (trapping host) raw.data place count
  · obtain ⟨text, accepted, -⟩ := cutNetstring_served (trapping host) raw fits initial counted
      (fun _ => passes) served
    rw [accepted] at overflowed
    cases overflowed
  · rcases cutNetstring_unserved (trapping host) raw fits initial counted (fun _ => passes)
      served with refused | ⟨-, -, outside⟩
    · rw [refused] at overflowed
      cases overflowed
    · rw [outside] at overflowed
      cases overflowed

/-- Without a number, `INT_MAX` overflows behind any colon. -/
theorem exists_overflow (unfit : ¬ SumFits host raw.data place) :
    ∃ initial, cutNetstring (trapping host) (some raw) place initial =
      .error .signedOverflow := by
  obtain ⟨found, bound⟩ := Classical.not_imp.mp unfit
  by_cases number : Numbered (textBefore raw.data place 58)
  · exact ⟨0, cutNetstring_overflows (trapping host) raw fits 0 rfl rfl
      (lt_of_not_ge fun within => bound ⟨number, within⟩)⟩
  · have start := behind_found found
    have counted : (sscanfInt (trapping host) (textBefore raw.data place 58) 2147483647).toInt =
        2147483647 := by
      rw [sscanfInt_unnumbered (trapping host) number]
      rfl
    exact ⟨2147483647, cutNetstring_overflows (trapping host) raw fits 2147483647 counted rfl
      (by omega)⟩

end Netstring

/-! ## The parser -/

section Parser

variable (raw : Bstring)

/-- The run behind headers short of `INT_MAX`. -/
theorem parse_body {headerlen : Int32} {count : Int}
    (served : Served host raw.data (headerPlace raw.data) count)
    (counted : (sscanfInt host (headerText raw.data) headerlen).toInt = count)
    (room : headerStart raw.data + count < 2147483647) :
    ∃ request : Bstring → Mongrel2Request, IsInt (bodyPlace raw.data count) ∧
      ∀ bodylen, mongrel2ParseRequest host headerlen bodylen (some raw) =
        Option.map (fun part => request part.2) <$>
          cutNetstring host (some raw) (bodyPlace raw.data count) bodylen := by
  obtain ⟨next, request, fits, -, exact, parsed⟩ :=
    parse_next served counted fun last => absurd last.2 (by omega)
  rw [exact room] at fits parsed
  exact ⟨request, fits, parsed⟩

/-- What an accepted message can serve. -/
theorem parse_served
    (room : ∀ count, Served host raw.data (headerPlace raw.data) count →
      headerStart raw.data + count < 2147483647)
    {headerlen bodylen : Int32} {req : Mongrel2Request}
    (accepted : mongrel2ParseRequest host headerlen bodylen (some raw) = .ok (some req)) :
    ∃ count length, (sscanfInt host (headerText raw.data) headerlen).toInt = count ∧
      Served host raw.data (headerPlace raw.data) count ∧
      Served host raw.data (bodyPlace raw.data count) length := by
  rcases headers_cases host headerlen raw with ⟨fault, failed⟩ | refused | ⟨count, counted, served⟩
  · rw [parse_headers_fail failed] at accepted
    cases accepted
  · rw [parse_headers_refused refused] at accepted
    cases accepted
  · obtain ⟨request, fits, parsed⟩ := parse_body host raw served counted (room count served)
    rw [parsed] at accepted
    cases bodyEq : cutNetstring host (some raw) (bodyPlace raw.data count) bodylen with
    | error fault =>
        rw [bodyEq] at accepted
        cases accepted
    | ok netstring =>
        rw [bodyEq] at accepted
        cases netstring with
        | none => cases accepted
        | some netstring =>
            obtain ⟨length, -, bodyServed, -⟩ := cutNetstring_inv host raw fits bodyEq
            exact ⟨count, length, counted, served, bodyServed⟩

/-- A message that can serve both lengths is accepted for some first contents. -/
theorem parse_accepts {count length : Int}
    (served : Served host raw.data (headerPlace raw.data) count)
    (room : headerStart raw.data + count < 2147483647)
    (bodyServed : Served host raw.data (bodyPlace raw.data count) length) :
    ∃ headerlen bodylen req,
      mongrel2ParseRequest host headerlen bodylen (some raw) = .ok (some req) ∧
        (sscanfInt host (headerText raw.data) headerlen).toInt = count := by
  have sized := raw.fits
  have inside := bodyServed.inside
  obtain ⟨headerlen, counted⟩ := served.taken
  obtain ⟨bodylen, bodyCounted⟩ := bodyServed.taken
  obtain ⟨request, fits, parsed⟩ := parse_body host raw served counted room
  obtain ⟨body, bodyEq, -⟩ := cutNetstring_served host raw fits bodylen bodyCounted
    (fun _ => by omega) bodyServed
  refine ⟨headerlen, bodylen, request body, ?_, counted⟩
  rw [parsed, bodyEq]
  rfl

/-- An overflow in the step to the body or in the body is one of the run. -/
theorem parse_body_overflow {count : Int}
    (served : Served (trapping host) raw.data (headerPlace raw.data) count)
    (overflows : 2147483647 ≤ headerStart raw.data + count ∨
      ¬ SumFits host raw.data (bodyPlace raw.data count)) :
    ∃ headerlen bodylen, mongrel2ParseRequest (trapping host) headerlen bodylen (some raw) =
      .error .signedOverflow := by
  obtain ⟨headerlen, counted⟩ := served.taken
  by_cases room : headerStart raw.data + count < 2147483647
  · have unfit := overflows.resolve_left (by omega)
    obtain ⟨request, fits, parsed⟩ := parse_body (trapping host) raw served counted room
    obtain ⟨bodylen, overflowed⟩ := exists_overflow host raw fits unfit
    refine ⟨headerlen, bodylen, ?_⟩
    rw [parsed, overflowed]
    rfl
  · have sized := raw.fits
    have inside : headerStart raw.data + count ≤ raw.data.length := served.inside
    exact ⟨headerlen, 0, parse_last served counted ⟨rfl, by omega⟩ 0⟩

/-- Sums that fit do not overflow in a run. -/
theorem parse_fits (bounded : Bounded host raw.data) (headerlen bodylen : Int32) :
    mongrel2ParseRequest (trapping host) headerlen bodylen (some raw) ≠ .error .signedOverflow := by
  intro overflowed
  rcases headers_cases (trapping host) headerlen raw with
    ⟨fault, failed⟩ | refused | ⟨count, counted, served⟩
  · rw [parse_headers_fail failed] at overflowed
    cases overflowed
    exact cutNetstring_fits host raw (headerPlace_fits raw) bounded.header headerlen failed
  · rw [parse_headers_refused refused] at overflowed
    cases overflowed
  · have servedHere := (served_trapping host).mp served
    obtain ⟨request, fits, parsed⟩ := parse_body (trapping host) raw served counted
      (bounded.next count servedHere)
    have safe := cutNetstring_fits host raw fits (bounded.body count servedHere) bodylen
    rw [parsed] at overflowed
    cases bodyEq : cutNetstring (trapping host) (some raw) (bodyPlace raw.data count) bodylen with
    | error fault =>
        rw [bodyEq] at overflowed
        cases overflowed
        exact safe bodyEq
    | ok netstring =>
        rw [bodyEq] at overflowed
        cases overflowed

end Parser

/-- The arithmetic of the parser stays in range exactly for the messages whose sums and
numbers do. -/
theorem parse_inRange_iff (raw : Bstring) : InRange host raw ↔ Bounded host raw.data := by
  constructor
  · intro inRange
    have next (count : Int) (served : Served host raw.data (headerPlace raw.data) count) :
        headerStart raw.data + count < 2147483647 := by
      by_contra last
      obtain ⟨headerlen, bodylen, overflowed⟩ := parse_body_overflow host raw
        ((served_trapping host).mpr served) (.inl (by omega))
      exact inRange.computed headerlen bodylen overflowed
    constructor
    · by_contra unfit
      obtain ⟨headerlen, overflowed⟩ := exists_overflow host raw (headerPlace_fits raw) unfit
      exact inRange.computed headerlen 0 (parse_headers_fail overflowed 0)
    · exact next
    · intro count served
      by_contra unfit
      obtain ⟨headerlen, bodylen, overflowed⟩ := parse_body_overflow host raw
        ((served_trapping host).mpr served) (.inr unfit)
      exact inRange.computed headerlen bodylen overflowed
    · intro count length served bodyServed
      obtain ⟨headerlen, bodylen, req, accepted, counted⟩ :=
        parse_accepts host raw served (next count served) bodyServed
      have texts := inRange.scanned headerlen bodylen req accepted
      rw [counted] at texts
      exact texts
  · intro bounded
    constructor
    · exact parse_fits host raw bounded
    · intro headerlen bodylen req accepted
      obtain ⟨count, length, counted, served, bodyServed⟩ :=
        parse_served host raw bounded.next accepted
      rw [counted]
      exact bounded.numbers count length served bodyServed

/-- The end of the headers of `u 1 / 2147483647:` is not an `int`, and
`u 4294967303 / 0:,0:,` is accepted as a message of connection 7. -/
theorem parse_out_of_range :
    ¬ InRange linuxHost ⟨32, asciiBytes "u 1 / 2147483647:", by decide⟩ ∧
      ¬ InRange linuxHost ⟨32, asciiBytes "u 4294967303 / 0:,0:,", by decide⟩ := by
  constructor
  · intro inRange
    exact inRange.computed 0 0 rfl
  · intro inRange
    obtain ⟨connId, -⟩ := inRange.scanned 0 0 _ rfl
    exact absurd (connId 4294967303 rfl) (by decide)

end M2Handler.Handler

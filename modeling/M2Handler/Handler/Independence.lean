import M2Handler.Handler.Parsing

/-!
# Independence of the first contents

`headerlen` and `bodylen` keep whatever they hold when `sscanf` finds no number.  The
parser does not look at its result, so a message decides its own fate only when there
is a number in front of each colon that is reached.
-/

namespace M2Handler.Handler

open Machine Text Bstr

variable (host : Host)

/-- A number is found for each length that the parser asks for.  The body is reached
behind headers that the message can serve; the addition in between traps only at
`INT_MAX`. -/
structure Determined (raw : Bytes) : Prop where
  header : Numbered (headerText raw)
  body : ∀ count, Served host raw (headerPlace raw) count →
    ¬ (host.trapv = true ∧ headerStart raw + count = 2147483647) → Numbered (bodyText raw count)

section Netstring

variable (raw : Bstring) {place : Int} (fits : IsInt place)
include fits

/-- A number makes the first contents irrelevant. -/
theorem cutNetstring_initial (number : Numbered (textBefore raw.data place 58))
    (first second : Int32) :
    cutNetstring host (some raw) place first = cutNetstring host (some raw) place second := by
  rw [cutNetstring_eq host raw fits first rfl, cutNetstring_eq host raw fits second
    (congrArg Int32.toInt (sscanfInt_initial host number second first))]

variable (missing : ¬ Numbered (textBefore raw.data place 58))
include missing

/-- Without a number, a first content of `-1` is refused. -/
theorem cutNetstring_minus_one : cutNetstring host (some raw) place (-1) = .ok none := by
  have sized := raw.fits
  have bounds := behind_bounds raw.data place 58
  have counted : (sscanfInt host (textBefore raw.data place 58) (-1)).toInt = -1 := by
    rw [sscanfInt_unnumbered host missing]
    rfl
  rcases cutNetstring_unserved host raw fits (-1) counted (fun _ => by omega)
    (fun served => by have nonneg := served.nonneg; omega) with refused | ⟨-, impossible, -⟩
  · exact refused
  · cases impossible

omit fits in
/-- Without a number, any length that the message can serve may be taken. -/
theorem exists_served {count : Int} (nonneg : 0 ≤ count)
    (inside : behind raw.data place 58 + count ≤ raw.data.length) (short : count < 2147483647) :
    ∃ initial, (sscanfInt host (textBefore raw.data place 58) initial).toInt = count ∧
      Served host raw.data place count := by
  have counted : (sscanfInt host (textBefore raw.data place 58) (Int32.ofInt count)).toInt =
      count := by
    rw [sscanfInt_unnumbered host missing, Int32.toInt_ofInt_of_le] <;> omega
  exact ⟨_, counted, ⟨_, counted⟩, nonneg, inside, short⟩

end Netstring

section Parser

variable (raw : Bstring)

/-- A body without a number is refused or accepted, as `bodylen` says. -/
theorem parse_undecided {headerlen : Int32} {count : Int}
    (served : Served host raw.data (headerPlace raw.data) count)
    (counted : (sscanfInt host (headerText raw.data) headerlen).toInt = count)
    (room : ¬ (host.trapv = true ∧ headerStart raw.data + count = 2147483647))
    (missing : ¬ Numbered (bodyText raw.data count)) :
    mongrel2ParseRequest host headerlen (-1) (some raw) = .ok none ∧
      ∃ bodylen req, mongrel2ParseRequest host headerlen bodylen (some raw) = .ok (some req) := by
  have sized := raw.fits
  obtain ⟨next, request, fits, text, -, parsed⟩ := parse_next served counted room
  have bounds := behind_bounds raw.data next 58
  rw [← text] at missing
  constructor
  · rw [parsed, cutNetstring_minus_one host raw fits missing]
    rfl
  · obtain ⟨bodylen, bodyCounted, bodyServed⟩ := exists_served host raw missing
      (show (0 : Int) ≤ 0 by decide) (by omega) (by decide)
    obtain ⟨body, accepted, -⟩ := cutNetstring_served host raw fits bodylen bodyCounted
      (fun _ => by omega) bodyServed
    refine ⟨bodylen, request body, ?_⟩
    rw [parsed, accepted]
    rfl

/-- Without a number for the headers, `-1` is refused, and headers up to the last byte are
not: they leave no colon for the body. -/
theorem parse_headers_undecided (missing : ¬ Numbered (headerText raw.data)) :
    mongrel2ParseRequest host (-1) 0 (some raw) = .ok none ∧
      ∃ headerlen bodylen, mongrel2ParseRequest host headerlen bodylen (some raw) ≠ .ok none := by
  have fits := headerPlace_fits raw
  have sized := raw.fits
  have bounds : 0 ≤ headerStart raw.data ∧ headerStart raw.data ≤ raw.data.length :=
    behind_bounds raw.data (headerPlace raw.data) 58
  refine ⟨parse_headers_refused (cutNetstring_minus_one host raw fits missing) 0, ?_⟩
  obtain ⟨count, least, inside, short, most⟩ : ∃ count : Int, 0 ≤ count ∧
      headerStart raw.data + count ≤ raw.data.length ∧
      count < 2147483647 ∧ (raw.data.length : Int) ≤ bodyPlace raw.data count := by
    refine ⟨max 0 (raw.data.length - 1 - headerStart raw.data), ?_⟩
    unfold bodyPlace
    omega
  obtain ⟨headerlen, counted, served⟩ := exists_served host raw missing least inside short
  by_cases last : host.trapv = true ∧ headerStart raw.data + count = 2147483647
  · refine ⟨headerlen, 0, ?_⟩
    rw [parse_last served counted last]
    intro refused
    cases refused
  · have nothing : bodyText raw.data count = [] := (cut_nothing (restFrom_outside (.inr most)) 58).1
    obtain ⟨-, bodylen, req, parsed⟩ := parse_undecided host raw served counted last
      (by rw [nothing]; exact not_numbered_nil)
    refine ⟨headerlen, bodylen, ?_⟩
    rw [parsed]
    intro refused
    cases refused

/-- With the numbers there, the first contents do not matter. -/
theorem parse_determined (determined : Determined host raw.data)
    (headerlen bodylen headerlen' bodylen' : Int32) :
    mongrel2ParseRequest host headerlen bodylen (some raw) =
      mongrel2ParseRequest host headerlen' bodylen' (some raw) := by
  have same : mongrel2ParseRequest host headerlen bodylen (some raw) =
      mongrel2ParseRequest host headerlen' bodylen (some raw) := by
    obtain ⟨u, c, p, -, -, -, parsed⟩ := parse_eq host raw
    rw [parsed, parsed, cutNetstring_initial host raw (headerPlace_fits raw) determined.header
      headerlen headerlen']
  rw [same]
  rcases headers_cases host headerlen' raw with ⟨fault, failed⟩ | refused | ⟨count, counted, served⟩
  · rw [parse_headers_fail failed, parse_headers_fail failed]
  · rw [parse_headers_refused refused, parse_headers_refused refused]
  · by_cases last : host.trapv = true ∧ headerStart raw.data + count = 2147483647
    · rw [parse_last served counted last, parse_last served counted last]
    · have number := determined.body count served last
      obtain ⟨next, request, fits, text, -, parsed⟩ := parse_next served counted last
      rw [← text] at number
      rw [parsed, parsed, cutNetstring_initial host raw fits number bodylen bodylen']

end Parser

/-- The parser returns the same for all first contents exactly when a number is found for
each length that it asks for. -/
theorem parse_independent_iff (raw : Bstring) :
    (∀ headerlen bodylen headerlen' bodylen',
      mongrel2ParseRequest host headerlen bodylen (some raw) =
        mongrel2ParseRequest host headerlen' bodylen' (some raw)) ↔ Determined host raw.data := by
  constructor
  · intro same
    constructor
    · by_contra missing
      obtain ⟨refused, headerlen, bodylen, taken⟩ := parse_headers_undecided host raw missing
      exact taken ((same headerlen bodylen (-1) 0).trans refused)
    · intro count served room
      by_contra missing
      obtain ⟨headerlen, counted⟩ := served.taken
      obtain ⟨refused, bodylen, req, parsed⟩ := parse_undecided host raw served counted room missing
      have equal := (same headerlen bodylen headerlen (-1)).trans refused
      rw [parsed] at equal
      cases equal
  · exact parse_determined host raw

/-- The empty message is refused or accepted, as the first contents say. -/
theorem parse_empty_undecided :
    mongrel2ParseRequest linuxHost (-1) 0 (some ⟨8, [], by decide⟩) = .ok none ∧
      ∃ req, mongrel2ParseRequest linuxHost 0 0 (some ⟨8, [], by decide⟩) = .ok (some req) :=
  ⟨rfl, _, rfl⟩

end M2Handler.Handler

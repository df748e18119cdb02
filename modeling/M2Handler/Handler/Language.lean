import M2Handler.Handler.Parsing

/-!
# What the request parser accepts

Exactly the counted messages are accepted, as long as every delimiter that the
parser looks for is there and each length text begins with a number.  The
commas of the documented format are not among the delimiters.
-/

namespace M2Handler.Handler

open Machine Text Bstr

variable (host : Host)

/-- The parser finds every delimiter that it looks for, and a number in front
of each colon.  The second colon is looked for only behind headers that are as
long as their length says. -/
def Delimited (raw : Bytes) : Prop :=
  ∃ uuid connId path headerLength rest : Bytes,
    raw = uuid ++ 32 :: (connId ++ 32 :: (path ++ 32 :: (headerLength ++ 58 :: rest))) ∧
    Absent 32 uuid ∧ Absent 32 connId ∧ Absent 32 path ∧
    Absent 58 headerLength ∧ (scanInt (cString headerLength)).isSome = true ∧
    ∀ count : Nat, count ≤ rest.length → (sscanfInt host headerLength 0).toInt = count →
      ∃ bodyLength after : Bytes, rest.drop (count + 1) = bodyLength ++ 58 :: after ∧
        Absent 58 bodyLength ∧ (scanInt (cString bodyLength)).isSome = true

/-- The run returns no request, and the null pointer when overflows wrap. -/
def Refuses (run : Exec (Option Mongrel2Request)) : Prop :=
  (∀ req, run ≠ .ok (some req)) ∧ (host.trapv = false → run = .ok none)

theorem refuses_bind {part : Exec (Option (Int × Bstring))}
    {next : Option (Int × Bstring) → Exec (Option Mongrel2Request)}
    (refused : (∀ result, part ≠ .ok (some result)) ∧ (host.trapv = false → part = .ok none))
    (stops : next none = .ok none) : Refuses host (part >>= next) := by
  obtain ⟨never, wraps⟩ := refused
  cases part with
  | error fault =>
      refine ⟨(by intro req accepted; cases accepted), fun wrapping => ?_⟩
      cases wraps wrapping
  | ok result =>
      cases result with
      | none =>
          rw [Exec.ok_bind, stops]
          exact ⟨(by intro req accepted; cases accepted), fun _ => rfl⟩
      | some result => exact absurd rfl (never result)

section Refusals

variable {headerlen bodylen : Int32} {raw : Bstring} {uuid connId path headerLength rest : Bytes}
  (cut : raw.data = uuid ++ 32 :: (connId ++ 32 :: (path ++ 32 :: (headerLength ++ 58 :: rest))))
  (uuidAbsent : Absent 32 uuid) (connIdAbsent : Absent 32 connId) (pathAbsent : Absent 32 path)
  (headerAbsent : Absent 58 headerLength)
  (headerNumber : (scanInt (cString headerLength)).isSome = true)
include cut

/-- The length text of the headers stands behind the three fields. -/
theorem headers_cut :
    raw.data = (uuid ++ 32 :: (connId ++ 32 :: (path ++ [32]))) ++
      (headerLength ++ 58 :: rest) := by
  rw [cut]
  simp

include uuidAbsent connIdAbsent pathAbsent headerAbsent headerNumber

/-- Headers that are negative or longer than what follows the colon. -/
theorem refuses_headers
    (missing : ∀ count : Nat, count ≤ rest.length →
      (sscanfInt host headerLength 0).toInt ≠ count) :
    Refuses host (mongrel2ParseRequest host headerlen bodylen (some raw)) := by
  obtain ⟨u, c, p, _, _, _, parsed⟩ := parse_fields host headerlen bodylen cut uuidAbsent
    connIdAbsent pathAbsent
  rw [← sscanfInt_initial host headerNumber headerlen 0] at missing
  have refused := cutNetstring_refused host _ _ headerlen (headers_cut cut) headerAbsent missing
  rw [parsed]
  exact refuses_bind host refused rfl

/-- A body that is negative or longer than what follows its colon. -/
theorem refuses_body {count : Nat} (inside : count ≤ rest.length)
    (counted : (sscanfInt host headerLength 0).toInt = count) {comma : UInt8}
    {bodyLength after : Bytes}
    (restCut : rest = rest.take count ++ comma :: (bodyLength ++ 58 :: after))
    (bodyAbsent : Absent 58 bodyLength)
    (bodyNumber : (scanInt (cString bodyLength)).isSome = true)
    (missing : ∀ bodyCount : Nat, bodyCount ≤ after.length →
      (sscanfInt host bodyLength 0).toInt ≠ bodyCount) :
    Refuses host (mongrel2ParseRequest host headerlen bodylen (some raw)) := by
  obtain ⟨u, c, p, _, _, _, parsed⟩ := parse_fields host headerlen bodylen cut uuidAbsent
    connIdAbsent pathAbsent
  rw [← sscanfInt_initial host headerNumber headerlen 0] at counted
  rw [← sscanfInt_initial host bodyNumber bodylen 0] at missing
  have sized := raw.fits
  have bodyCut : raw.data = (uuid ++ 32 :: (connId ++ 32 :: (path ++ 32 ::
      (headerLength ++ 58 :: (rest.take count ++ [comma]))))) ++ (bodyLength ++ 58 :: after) := by
    rw [cut]
    nth_rewrite 1 [restCut]
    simp
  have refused := cutNetstring_refused host _ _ bodylen bodyCut bodyAbsent missing
  obtain ⟨headers, headersEq, _⟩ := cutNetstring_found host _ _ headerlen (headers_cut cut)
    headerAbsent counted inside
  have next : ((uuid ++ 32 :: (connId ++ 32 :: (path ++ [32]))).length : Int) +
      headerLength.length + 1 + count + 1 =
        (uuid ++ 32 :: (connId ++ 32 :: (path ++ 32 ::
          (headerLength ++ 58 :: (rest.take count ++ [comma]))))).length := by
    simp only [List.length_append, List.length_cons, List.length_nil, List.length_take]
    omega
  have bound := congrArg List.length bodyCut
  rw [List.length_append] at bound
  rw [parsed, headersEq, Exec.ok_bind]
  dsimp only
  rw [next, arith_eq _ (by unfold IsInt intMin intMax; omega), Exec.ok_bind]
  exact refuses_bind host refused rfl

end Refusals

/-- A delimited message is a counted message or is refused. -/
theorem parse_delimited (headerlen bodylen : Int32) {raw : Bstring}
    (delimited : Delimited host raw.data) :
    (∃ message : Message, message.bytes = raw.data ∧ message.Counted host) ∨
      Refuses host (mongrel2ParseRequest host headerlen bodylen (some raw)) := by
  obtain ⟨uuid, connId, path, headerLength, rest, cut, uuidAbsent, connIdAbsent, pathAbsent,
    headerAbsent, headerNumber, bodyDelimited⟩ := delimited
  by_cases headersThere : ∃ count : Nat, count ≤ rest.length ∧
      (sscanfInt host headerLength 0).toInt = count
  · obtain ⟨count, inside, counted⟩ := headersThere
    obtain ⟨bodyLength, after, bodyCut, bodyAbsent, bodyNumber⟩ :=
      bodyDelimited count inside counted
    -- The byte in front of the body length is the one that is skipped.
    obtain ⟨comma, restCut⟩ : ∃ comma, rest = rest.take count ++
        comma :: (bodyLength ++ 58 :: after) := by
      have more : count < rest.length := by
        by_contra short
        rw [List.drop_eq_nil_of_le (by omega)] at bodyCut
        exact absurd bodyCut.symm (by simp)
      refine ⟨rest[count], ?_⟩
      rw [← bodyCut, ← List.drop_eq_getElem_cons more, List.take_append_drop]
    by_cases bodyThere : ∃ bodyCount : Nat, bodyCount ≤ after.length ∧
        (sscanfInt host bodyLength 0).toInt = bodyCount
    · obtain ⟨bodyCount, bodyInside, bodyCounted⟩ := bodyThere
      refine .inl ⟨⟨uuid, connId, path, headerLength, rest.take count, comma, bodyLength,
        after.take bodyCount, after.drop bodyCount, uuidAbsent, connIdAbsent, pathAbsent,
        headerAbsent, bodyAbsent⟩, ?_, ⟨headerNumber, ?_⟩, ⟨bodyNumber, ?_⟩⟩
      · rw [cut, Message.bytes, List.take_append_drop, ← restCut]
      · rw [counted, List.length_take, Nat.min_eq_left inside]
      · rw [bodyCounted, List.length_take, Nat.min_eq_left bodyInside]
    · refine .inr (refuses_body host cut uuidAbsent connIdAbsent pathAbsent headerAbsent
        headerNumber inside counted restCut bodyAbsent bodyNumber ?_)
      exact fun bodyCount bodyInside same => bodyThere ⟨bodyCount, bodyInside, same⟩
  · refine .inr (refuses_headers host cut uuidAbsent connIdAbsent pathAbsent headerAbsent
      headerNumber ?_)
    exact fun count inside same => headersThere ⟨count, inside, same⟩

/-- A delimited message is accepted exactly when it is a counted message, and
the request carries its parts. -/
theorem parse_accepts_iff (headerlen bodylen : Int32) {raw : Bstring}
    (delimited : Delimited host raw.data) :
    ((∃ req, mongrel2ParseRequest host headerlen bodylen (some raw) = .ok (some req)) ↔
      ∃ message : Message, message.bytes = raw.data ∧ message.Counted host) ∧
    (∀ req, mongrel2ParseRequest host headerlen bodylen (some raw) = .ok (some req) →
      ∃ message : Message, message.bytes = raw.data ∧ message.Counted host ∧
        message.Describes host req) ∧
    (host.trapv = false →
      (¬ ∃ message : Message, message.bytes = raw.data ∧ message.Counted host) →
      mongrel2ParseRequest host headerlen bodylen (some raw) = .ok none) := by
  have complete (message : Message) (bytes : message.bytes = raw.data)
      (counted : message.Counted host) :
      ∃ req, mongrel2ParseRequest host headerlen bodylen (some raw) = .ok (some req) ∧
        message.Describes host req :=
    parse_message host headerlen bodylen raw counted bytes.symm
  obtain ⟨message, bytes, counted⟩ | ⟨never, wraps⟩ :=
    parse_delimited host headerlen bodylen delimited
  · obtain ⟨req, accepted, described⟩ := complete message bytes counted
    refine ⟨⟨fun _ => ⟨message, bytes, counted⟩, fun _ => ⟨req, accepted⟩⟩, ?_, ?_⟩
    · intro other otherAccepted
      rw [accepted] at otherAccepted
      cases otherAccepted
      exact ⟨message, bytes, counted, described⟩
    · intro _ absent
      exact absurd ⟨message, bytes, counted⟩ absent
  · refine ⟨⟨fun ⟨req, accepted⟩ => absurd accepted (never req), ?_⟩, ?_, ?_⟩
    · rintro ⟨message, bytes, counted⟩
      obtain ⟨req, accepted, _⟩ := complete message bytes counted
      exact ⟨req, accepted⟩
    · intro req accepted
      exact absurd accepted (never req)
    · intro wrapping _
      exact wraps wrapping

/-! ## A message outside the documented format -/

/-- The bytes are the documented message of the request's own fields. -/
def Documents (raw : Bytes) (req : Mongrel2Request) : Prop :=
  ∃ uuid connId path headers body : Bytes,
    bdata req.uuid = some uuid ∧ bdata req.connIdBstr = some connId ∧
    bdata req.path = some path ∧ bdata req.rawHeaders = some headers ∧
    bdata req.body = some body ∧ raw = documented uuid connId path headers body ∧
    (Absent 32 (uuid ++ connId ++ path)) ∧ connId = printInt req.connId.toInt

/-- `u 1 p 2:{};1:b!` has a semicolon and an exclamation mark for commas. -/
def semicolonMessage : Message where
  uuid := [117]
  connId := [49]
  path := [112]
  headerLength := [50]
  headers := [123, 125]
  comma := 59
  bodyLength := [49]
  body := [98]
  tail := [33]
  uuid_no_space := by decide
  connId_no_space := by decide
  path_no_space := by decide
  headerLength_no_colon := by decide
  bodyLength_no_colon := by decide

def semicolonRaw : Bstring := ⟨16, semicolonMessage.bytes, by decide⟩

theorem counted_semicolon : semicolonMessage.Counted linuxHost :=
  ⟨⟨by decide, by decide⟩, ⟨by decide, by decide⟩⟩

theorem parse_accepts_semicolon :
    ∃ req, mongrel2ParseRequest linuxHost 0 0 (some semicolonRaw) = .ok (some req) ∧
      ¬ Documents semicolonRaw.data req := by
  obtain ⟨req, accepted, described⟩ := parse_message linuxHost 0 0 semicolonRaw
    counted_semicolon rfl
  refine ⟨req, accepted, ?_⟩
  rintro ⟨uuid, connId, path, headers, body, uuidEq, connIdEq, pathEq, headersEq, bodyEq,
    whole, _⟩
  rw [described.uuid] at uuidEq
  rw [described.connIdBstr] at connIdEq
  rw [described.path] at pathEq
  rw [described.rawHeaders] at headersEq
  rw [described.body] at bodyEq
  cases uuidEq
  cases connIdEq
  cases pathEq
  cases headersEq
  cases bodyEq
  revert whole
  decide

theorem delimited_semicolon : Delimited linuxHost semicolonRaw.data := by
  refine ⟨[117], [49], [112], [50], [123, 125, 59, 49, 58, 98, 33], rfl, by decide, by decide,
    by decide, by decide, by decide, ?_⟩
  intro count _ counted
  have two : (sscanfInt linuxHost [50] 0).toInt = 2 := by decide
  obtain rfl : count = 2 := by omega
  exact ⟨[49], [98, 33], rfl, by decide, by decide⟩

theorem parse_accepts_iff_semicolon :
    (∃ req, mongrel2ParseRequest linuxHost 0 0 (some semicolonRaw) = .ok (some req)) ↔
      ∃ message : Message, message.bytes = semicolonRaw.data ∧ message.Counted linuxHost :=
  (parse_accepts_iff linuxHost 0 0 delimited_semicolon).1

end M2Handler.Handler

import M2Handler.Handler.Cutting

/-!
# The language of the request parser

A message is cut at three spaces, at a colon, after the counted headers, at
another colon and after the counted body.  The byte after the headers and the
bytes after the body are skipped unread, and each length is whatever number
`sscanf` finds at the front of its text.  The messages that Mongrel2 documents
are among these.
-/

namespace M2Handler.Handler

open Machine Text Bstr

/-! ## Messages -/

structure Message where
  uuid : Bytes
  connId : Bytes
  path : Bytes
  headerLength : Bytes
  headers : Bytes
  comma : UInt8
  bodyLength : Bytes
  body : Bytes
  tail : Bytes
  uuid_no_space : Absent 32 uuid
  connId_no_space : Absent 32 connId
  path_no_space : Absent 32 path
  headerLength_no_colon : Absent 58 headerLength
  bodyLength_no_colon : Absent 58 bodyLength

variable (host : Host)

def Counts (text : Bytes) (count : Int) : Prop :=
  (scanInt (cString text)).isSome = true ∧ (sscanfInt host text 0).toInt = count

namespace Message

def bytes (message : Message) : Bytes :=
  message.uuid ++ 32 :: (message.connId ++ 32 :: (message.path ++ 32 ::
    (message.headerLength ++ 58 :: (message.headers ++ message.comma ::
      (message.bodyLength ++ 58 :: (message.body ++ message.tail))))))

/-- Both lengths are those of the parts they announce. -/
structure Counted (message : Message) : Prop where
  headers : Counts host message.headerLength message.headers.length
  body : Counts host message.bodyLength message.body.length

/-- The request that carries the parts of the message. -/
structure Describes (message : Message) (req : Mongrel2Request) : Prop where
  uuid : bdata req.uuid = some message.uuid
  connIdBstr : bdata req.connIdBstr = some message.connId
  connId : req.connId = sscanfInt host message.connId 0
  path : bdata req.path = some message.path
  rawHeaders : bdata req.rawHeaders = some message.headers
  body : bdata req.body = some message.body
  headers : req.headers = none

end Message

/-- The message that PROTOCOL.markdown documents for these fields. -/
def documented (uuid connId path headers body : Bytes) : Bytes :=
  uuid ++ 32 :: (connId ++ 32 :: (path ++ 32 :: (decimal headers.length ++ 58 ::
    (headers ++ 44 :: (decimal body.length ++ 58 :: (body ++ [44]))))))

/-! ## One netstring -/

section Netstring

variable {raw : Bstring} (before : Bytes) {digits : Bytes} (rest : Bytes) (initial : Int32)
  (cut : raw.data = before ++ (digits ++ 58 :: rest)) (absent : Absent 58 digits)
include cut absent

/-- The place and the length text of a netstring in the middle of a message. -/
theorem netstring_place :
    textBefore raw.data before.length 58 = digits ∧
      behind raw.data before.length 58 = (before.length : Int) + digits.length + 1 := by
  have front := restFrom_append cut
  exact ⟨textBefore_cut front absent, behind_cut front absent⟩

/-- A netstring whose length is not larger than what follows the colon. -/
theorem cutNetstring_found {count : Nat} (counted : (sscanfInt host digits initial).toInt = count)
    (inside : count ≤ rest.length) :
    ∃ text, cutNetstring host (some raw) before.length initial =
        .ok (some ((before.length : Int) + digits.length + 1 + count, text)) ∧
      text.data = rest.take count := by
  have length := congrArg List.length cut
  have sized := raw.fits
  simp only [List.length_append, List.length_cons] at length
  obtain ⟨text, place⟩ := netstring_place before rest cut absent
  rw [← text] at counted
  have served : Served host raw.data before.length count :=
    ⟨⟨initial, counted⟩, by omega, by rw [place]; omega, by omega⟩
  obtain ⟨part, accepted, bytes⟩ := cutNetstring_served host raw
    (by unfold IsInt intMin intMax; omega) initial counted (fun _ => by rw [place]; omega) served
  have dropped := restFrom_behind (by omega) (restFrom_append cut) absent
  rw [restFrom, if_neg (by rw [place]; omega)] at dropped
  rw [dropped, Int.toNat_natCast] at bytes
  rw [place] at accepted
  exact ⟨part, accepted, bytes⟩

/-- A netstring whose length is negative or larger than what follows. -/
theorem cutNetstring_refused
    (outside : ∀ count : Nat, count ≤ rest.length →
      (sscanfInt host digits initial).toInt ≠ count) :
    (∀ part, cutNetstring host (some raw) before.length initial ≠ .ok (some part)) ∧
      (host.trapv = false → cutNetstring host (some raw) before.length initial = .ok none) := by
  have length := congrArg List.length cut
  have sized := raw.fits
  simp only [List.length_append, List.length_cons] at length
  obtain ⟨text, place⟩ := netstring_place before rest cut absent
  rw [← text] at outside
  have fits : IsInt (before.length : Int) := by
    unfold IsInt intMin intMax
    omega
  generalize counted : (sscanfInt host (textBefore raw.data before.length 58) initial).toInt =
    count at outside
  have unserved : ¬ Served host raw.data before.length count := by
    rintro ⟨-, nonneg, inside, -⟩
    rw [place] at inside
    exact outside count.toNat (by omega) (by omega)
  by_cases passes : host.trapv = true → behind raw.data before.length 58 + count ≤ 2147483647
  · rcases cutNetstring_unserved host raw fits initial counted passes unserved with
      refused | ⟨front, -, -⟩
    · rw [refused]
      exact ⟨(by intro part accepted; cases accepted), fun _ => rfl⟩
    · omega
  · obtain ⟨trapv, long⟩ := Classical.not_imp.mp passes
    rw [cutNetstring_overflows host raw fits initial counted trapv (by omega)]
    refine ⟨(by intro part accepted; cases accepted), fun wraps => ?_⟩
    rw [trapv] at wraps
    cases wraps

end Netstring

/-! ## The parser -/

section Parser

variable (headerlen bodylen : Int32) (raw : Bstring)

/-- The parser makes three cuts, which do not fail, and takes two netstrings. -/
theorem parse_eq :
    ∃ u c p : Bstring, u.data = textBefore raw.data 0 32 ∧ c.data = connIdText raw.data ∧
      p.data = textBefore raw.data (pathPlace raw.data) 32 ∧ ∀ headerlen bodylen,
      mongrel2ParseRequest host headerlen bodylen (some raw) = (do
        let headers ← cutNetstring host (some raw) (headerPlace raw.data) headerlen
        match headers with
        | none => return none
        | some (eheader, rawHeaders) =>
            let sbody ← arith host.trapv (eheader + 1)
            let netstring ← cutNetstring host (some raw) sbody bodylen
            match netstring with
            | none => return none
            | some (_, body) =>
                return some
                  { uuid := some u
                    connId := sscanfInt host (connIdText raw.data) 0
                    connIdBstr := some c
                    path := some p
                    rawHeaders := some rawHeaders
                    headers := none
                    body := some body }) := by
  have next (place : Int) : arith host.trapv (behind raw.data place 32 - 1 + 1) =
      .ok (behind raw.data place 32) := by
    rw [Int.sub_add_cancel]
    exact arith_eq _ (isInt_behind raw place 32)
  obtain ⟨u, uuidEq, uuidBytes⟩ := cutField_eq host raw (show IsInt 0 by decide)
    (show SPACE.data = [32] from rfl)
  obtain ⟨c, connIdEq, connIdBytes⟩ := cutField_eq host raw (isInt_behind raw 0 32)
    (show SPACE.data = [32] from rfl)
  obtain ⟨p, pathEq, pathBytes⟩ := cutField_eq host raw
    (isInt_behind raw (behind raw.data 0 32) 32) (show SPACE.data = [32] from rfl)
  refine ⟨u, c, p, uuidBytes, connIdBytes, pathBytes, fun headerlen bodylen => ?_⟩
  rw [mongrel2ParseRequest, uuidEq]
  simp only [Exec.ok_bind, Option.isNone_some, Bool.false_eq_true, if_false]
  rw [next, Exec.ok_bind, connIdEq]
  simp only [Exec.ok_bind]
  rw [next, Exec.ok_bind, pathEq]
  simp only [Exec.ok_bind, Option.isNone_some, Bool.false_eq_true, if_false]
  rw [next, Exec.ok_bind, connIdBytes]
  rfl

section Stages

variable {host headerlen raw}

/-- A run ends as its headers do, unless these are served. -/
theorem parse_headers_fail {fault : Fault}
    (failed : cutNetstring host (some raw) (headerPlace raw.data) headerlen = .error fault)
    (bodylen : Int32) :
    mongrel2ParseRequest host headerlen bodylen (some raw) = .error fault := by
  obtain ⟨u, c, p, -, -, -, parsed⟩ := parse_eq host raw
  rw [parsed, failed, Exec.error_bind]

theorem parse_headers_refused
    (refused : cutNetstring host (some raw) (headerPlace raw.data) headerlen = .ok none)
    (bodylen : Int32) : mongrel2ParseRequest host headerlen bodylen (some raw) = .ok none := by
  obtain ⟨u, c, p, -, -, -, parsed⟩ := parse_eq host raw
  rw [parsed, refused, Exec.ok_bind]
  rfl

variable {count : Int} (served : Served host raw.data (headerPlace raw.data) count)
  (counted : (sscanfInt host (headerText raw.data) headerlen).toInt = count)
include served counted

/-- Headers that the message can serve are cut. -/
theorem headers_served :
    ∃ headers, cutNetstring host (some raw) (headerPlace raw.data) headerlen =
      .ok (some (headerStart raw.data + count, headers)) := by
  have sized := raw.fits
  have inside := served.inside
  obtain ⟨headers, accepted, -⟩ := cutNetstring_served host raw (headerPlace_fits raw) headerlen
    counted (fun _ => by omega) served
  exact ⟨headers, accepted⟩

/-- Headers that end at `INT_MAX` stop a run that traps. -/
theorem parse_last (last : host.trapv = true ∧ headerStart raw.data + count = 2147483647)
    (bodylen : Int32) :
    mongrel2ParseRequest host headerlen bodylen (some raw) = .error .signedOverflow := by
  obtain ⟨u, c, p, -, -, -, parsed⟩ := parse_eq host raw
  obtain ⟨headers, headersEq⟩ := headers_served served counted
  rw [parsed, headersEq, Exec.ok_bind]
  dsimp only
  rw [next_traps host last, Exec.error_bind]

/-- Other headers lead to the place of the body, and the run ends as the body does. -/
theorem parse_next (room : ¬ (host.trapv = true ∧ headerStart raw.data + count = 2147483647)) :
    ∃ (next : Int) (request : Bstring → Mongrel2Request), IsInt next ∧
      textBefore raw.data next 58 = bodyText raw.data count ∧
      (headerStart raw.data + count < 2147483647 → next = bodyPlace raw.data count) ∧
      ∀ bodylen, mongrel2ParseRequest host headerlen bodylen (some raw) =
        Option.map (fun part => request part.2) <$> cutNetstring host (some raw) next bodylen := by
  obtain ⟨u, c, p, -, -, -, parsed⟩ := parse_eq host raw
  obtain ⟨headers, headersEq⟩ := headers_served served counted
  obtain ⟨next, nextEq, fits, text, exact⟩ := next_place host served room
  refine ⟨next, fun body =>
    { uuid := some u
      connId := sscanfInt host (connIdText raw.data) 0
      connIdBstr := some c
      path := some p
      rawHeaders := some headers
      headers := none
      body := some body }, fits, text, exact, fun bodylen => ?_⟩
  rw [parsed, headersEq, Exec.ok_bind]
  dsimp only
  rw [nextEq, Exec.ok_bind]
  cases cutNetstring host (some raw) next bodylen with
  | error fault => rfl
  | ok netstring =>
      cases netstring with
      | none => rfl
      | some netstring => rfl

omit served counted in
/-- The three ways of a run through the headers. -/
theorem headers_cases (host : Host) (headerlen : Int32) (raw : Bstring) :
    (∃ fault, cutNetstring host (some raw) (headerPlace raw.data) headerlen = .error fault) ∨
      cutNetstring host (some raw) (headerPlace raw.data) headerlen = .ok none ∨
      ∃ count, (sscanfInt host (headerText raw.data) headerlen).toInt = count ∧
        Served host raw.data (headerPlace raw.data) count := by
  cases headersEq : cutNetstring host (some raw) (headerPlace raw.data) headerlen with
  | error fault => exact .inl ⟨fault, rfl⟩
  | ok headers =>
      cases headers with
      | none => exact .inr (.inl rfl)
      | some headers =>
          obtain ⟨count, counted, served, -⟩ :=
            cutNetstring_inv host raw (headerPlace_fits raw) headersEq
          exact .inr (.inr ⟨count, counted, served⟩)

end Stages

section Fields

variable {raw} {uuid connId path rest : Bytes}
  (cut : raw.data = uuid ++ 32 :: (connId ++ 32 :: (path ++ 32 :: rest)))
  (uuidAbsent : Absent 32 uuid) (connIdAbsent : Absent 32 connId) (pathAbsent : Absent 32 path)
include cut uuidAbsent connIdAbsent pathAbsent

/-- The texts and the places of fields whose spaces are there. -/
theorem fields_eq :
    textBefore raw.data 0 32 = uuid ∧ connIdText raw.data = connId ∧
      textBefore raw.data (pathPlace raw.data) 32 = path ∧
      headerPlace raw.data = (uuid ++ 32 :: (connId ++ 32 :: (path ++ [32]))).length := by
  have first : restFrom raw.data 0 = uuid ++ 32 :: (connId ++ 32 :: (path ++ 32 :: rest)) := cut
  have second : restFrom raw.data (connIdPlace raw.data) = connId ++ 32 :: (path ++ 32 :: rest) :=
    restFrom_behind (by decide) first uuidAbsent
  have third : restFrom raw.data (pathPlace raw.data) = path ++ 32 :: rest :=
    restFrom_behind (behind_bounds _ _ _).1 second connIdAbsent
  refine ⟨textBefore_cut first uuidAbsent, textBefore_cut second connIdAbsent,
    textBefore_cut third pathAbsent, ?_⟩
  rw [headerPlace, behind_cut third pathAbsent, pathPlace, behind_cut second connIdAbsent,
    connIdPlace, behind_cut first uuidAbsent]
  simp only [List.length_append, List.length_cons, List.length_nil]
  omega

/-- The three fields in front of the headers. -/
theorem parse_fields :
    ∃ u c p : Bstring, u.data = uuid ∧ c.data = connId ∧ p.data = path ∧
      mongrel2ParseRequest host headerlen bodylen (some raw) = (do
        let headers ← cutNetstring host (some raw)
          (uuid ++ 32 :: (connId ++ 32 :: (path ++ [32]))).length headerlen
        match headers with
        | none => return none
        | some (eheader, rawHeaders) =>
            let sbody ← arith host.trapv (eheader + 1)
            let netstring ← cutNetstring host (some raw) sbody bodylen
            match netstring with
            | none => return none
            | some (_, body) =>
                return some
                  { uuid := some u
                    connId := sscanfInt host connId 0
                    connIdBstr := some c
                    path := some p
                    rawHeaders := some rawHeaders
                    headers := none
                    body := some body }) := by
  obtain ⟨u, c, p, uuidBytes, connIdBytes, pathBytes, whole⟩ := parse_eq host raw
  have parsed := whole headerlen bodylen
  obtain ⟨uuidText, connIdTextEq, pathText, place⟩ :=
    fields_eq cut uuidAbsent connIdAbsent pathAbsent
  rw [uuidText] at uuidBytes
  rw [connIdTextEq] at connIdBytes parsed
  rw [pathText] at pathBytes
  rw [place] at parsed
  exact ⟨u, c, p, uuidBytes, connIdBytes, pathBytes, parsed⟩

end Fields

/-- Every counted message is accepted, and the request carries its parts. -/
theorem parse_message {message : Message} (counted : message.Counted host)
    (bytes : raw.data = message.bytes) :
    ∃ req, mongrel2ParseRequest host headerlen bodylen (some raw) = .ok (some req) ∧
      message.Describes host req := by
  obtain ⟨⟨headerNumber, headerCount⟩, ⟨bodyNumber, bodyCount⟩⟩ := counted
  rw [sscanfInt_initial host headerNumber 0 headerlen] at headerCount
  rw [sscanfInt_initial host bodyNumber 0 bodylen] at bodyCount
  have length := congrArg List.length bytes
  have sized := raw.fits
  simp only [Message.bytes, List.length_append, List.length_cons] at length
  obtain ⟨u, c, p, uuidBytes, connIdBytes, pathBytes, parsed⟩ := parse_fields host headerlen
    bodylen bytes message.uuid_no_space message.connId_no_space message.path_no_space
  obtain ⟨headers, headersEq, headersBytes⟩ := cutNetstring_found host
    (message.uuid ++ 32 :: (message.connId ++ 32 :: (message.path ++ [32])))
    (message.headers ++ message.comma :: (message.bodyLength ++ 58 ::
      (message.body ++ message.tail)))
    headerlen (by rw [bytes]; simp [Message.bytes]) message.headerLength_no_colon headerCount
    (by rw [List.length_append]; omega)
  obtain ⟨body, bodyEq, bodyBytes⟩ := cutNetstring_found host
    (message.uuid ++ 32 :: (message.connId ++ 32 :: (message.path ++ 32 ::
      (message.headerLength ++ 58 :: (message.headers ++ [message.comma])))))
    (message.body ++ message.tail) bodylen (by rw [bytes]; simp [Message.bytes])
    message.bodyLength_no_colon bodyCount
    (by rw [List.length_append]; omega)
  have next : ((message.uuid ++ 32 :: (message.connId ++ 32 :: (message.path ++ [32]))).length :
      Int) + message.headerLength.length + 1 + message.headers.length + 1 =
        (message.uuid ++ 32 :: (message.connId ++ 32 :: (message.path ++ 32 ::
          (message.headerLength ++ 58 :: (message.headers ++ [message.comma]))))).length := by
    simp only [List.length_append, List.length_cons, List.length_nil]
    omega
  rw [List.take_left] at headersBytes bodyBytes
  rw [parsed, headersEq]
  simp only [Exec.ok_bind]
  rw [next, arith_eq _ (by
    simp only [List.length_append, List.length_cons, List.length_nil]
    unfold IsInt intMin intMax
    omega), Exec.ok_bind, bodyEq]
  exact ⟨_, rfl, congrArg some uuidBytes, congrArg some connIdBytes, rfl,
    congrArg some pathBytes, congrArg some headersBytes, congrArg some bodyBytes, rfl⟩

end Parser

/-! ## The documented format -/

theorem counts_decimal {count : Nat} (fits : count ≤ 2147483647) :
    Counts host (decimal count) count := by
  have text : cString (decimal count) = decimal count := cString_eq (decimal_nulFree count)
  have int : IsInt (count : Int) := by
    unfold IsInt intMin intMax
    omega
  refine ⟨by rw [text, scanInt_decimal]; rfl, ?_⟩
  rw [sscanfInt, text, scanInt_decimal]
  dsimp only
  rw [if_pos int, Int32.toInt_ofInt_of_le] <;> unfold IsInt intMin intMax at int <;> omega

def documentedMessage (uuid connId path headers body : Bytes)
    (uuidAbsent : Absent 32 uuid) (connIdAbsent : Absent 32 connId)
    (pathAbsent : Absent 32 path) : Message where
  uuid := uuid
  connId := connId
  path := path
  headerLength := decimal headers.length
  headers := headers
  comma := 44
  bodyLength := decimal body.length
  body := body
  tail := [44]
  uuid_no_space := uuidAbsent
  connId_no_space := connIdAbsent
  path_no_space := pathAbsent
  headerLength_no_colon := decimal_no_colon headers.length
  bodyLength_no_colon := decimal_no_colon body.length

/-- The lengths of a documented message that is in a bstring count. -/
theorem counted_documented {uuid path headers body : Bytes} {connId : Bytes}
    (uuidAbsent : Absent 32 uuid) (connIdAbsent : Absent 32 connId) (pathAbsent : Absent 32 path)
    {raw : Bstring} (bytes : raw.data = documented uuid connId path headers body) :
    (documentedMessage uuid connId path headers body uuidAbsent connIdAbsent pathAbsent).Counted
      host := by
  have length := congrArg List.length bytes
  have sized := raw.fits
  simp only [documented, List.length_append, List.length_cons] at length
  exact ⟨counts_decimal host (by omega), counts_decimal host (by omega)⟩

/-- Every documented message is accepted. -/
theorem describes_documented (headerlen bodylen : Int32) {uuid path headers body : Bytes}
    {connId : Bytes} (uuidAbsent : Absent 32 uuid) (connIdAbsent : Absent 32 connId)
    (pathAbsent : Absent 32 path) {raw : Bstring}
    (bytes : raw.data = documented uuid connId path headers body) :
    ∃ req, mongrel2ParseRequest host headerlen bodylen (some raw) = .ok (some req) ∧
      (documentedMessage uuid connId path headers body uuidAbsent connIdAbsent
        pathAbsent).Describes host req :=
  parse_message host headerlen bodylen raw
    (counted_documented host uuidAbsent connIdAbsent pathAbsent bytes) bytes

/-- Parsing inverts the documented format. -/
theorem parse_documented (headerlen bodylen : Int32) {uuid path headers body : Bytes}
    {connId : Nat} (connIdInt : connId ≤ 2147483647) (uuidAbsent : Absent 32 uuid)
    (pathAbsent : Absent 32 path) {raw : Bstring}
    (bytes : raw.data = documented uuid (decimal connId) path headers body) :
    ∃ req, mongrel2ParseRequest host headerlen bodylen (some raw) = .ok (some req) ∧
      bdata req.uuid = some uuid ∧ bdata req.connIdBstr = some (decimal connId) ∧
      req.connId.toInt = connId ∧ bdata req.path = some path ∧
      bdata req.rawHeaders = some headers ∧ bdata req.body = some body ∧ req.headers = none := by
  obtain ⟨req, accepted, described⟩ := describes_documented host headerlen bodylen uuidAbsent
    (decimal_no_space connId) pathAbsent bytes
  refine ⟨req, accepted, described.uuid, described.connIdBstr, ?_, described.path,
    described.rawHeaders, described.body, described.headers⟩
  rw [described.connId]
  exact (counts_decimal host connIdInt).2

/-- The message `u 7 / 2:{},1:b,`. -/
theorem parse_documented_seven :
    ∃ req, mongrel2ParseRequest linuxHost 0 0
        (some ⟨16, documented [117] (decimal 7) [47] [123, 125] [98], by decide⟩) =
          .ok (some req) ∧
      bdata req.uuid = some [117] ∧ bdata req.connIdBstr = some (decimal 7) ∧
      req.connId.toInt = 7 ∧ bdata req.path = some [47] ∧
      bdata req.rawHeaders = some [123, 125] ∧ bdata req.body = some [98] ∧
      req.headers = none :=
  parse_documented linuxHost 0 0 (by decide) (by decide) (by decide) rfl

/-- Where the connection id and the body of a parsed request come from. -/
theorem parse_inv {raw : Option Bstring} {req : Mongrel2Request}
    (parsed : mongrel2ParseRequest host headerlen bodylen raw = .ok (some req)) :
    ∃ (message c body : Bstring) (place stop : Int), raw = some message ∧
      req.connIdBstr = some c ∧ req.connId = sscanfInt host c.data 0 ∧ IsInt place ∧
      cutNetstring host (some message) place bodylen = .ok (some (stop, body)) ∧
      req.body = some body := by
  cases raw with
  | none => cases parsed
  | some raw =>
      obtain ⟨_, c, _, _, text, _, whole⟩ := parse_eq host raw
      rw [whole] at parsed
      obtain ⟨headers, _, parsed⟩ := Exec.bind_eq_ok.mp parsed
      cases headers with
      | none => cases parsed
      | some headers =>
          obtain ⟨sbody, sbodyEq, parsed⟩ := Exec.bind_eq_ok.mp parsed
          obtain ⟨netstring, bodyEq, parsed⟩ := Exec.bind_eq_ok.mp parsed
          cases netstring with
          | none => cases parsed
          | some netstring =>
              cases parsed
              exact ⟨raw, c, netstring.2, sbody, netstring.1, rfl, rfl, by rw [text],
                arith_isInt sbodyEq, bodyEq, rfl⟩

/-- The connection id of every parsed request is scanned from its text. -/
theorem parse_connId {raw : Option Bstring} {req : Mongrel2Request}
    (parsed : mongrel2ParseRequest host headerlen bodylen raw = .ok (some req)) :
    ∃ text, bdata req.connIdBstr = some text ∧ req.connId = sscanfInt host text 0 := by
  obtain ⟨_, c, _, _, _, _, held, scanned, _⟩ := parse_inv host parsed
  rw [held]
  exact ⟨c.data, rfl, scanned⟩

/-- The body of every parsed request is the part of the message that its length counts. -/
theorem parse_counts_body {raw : Option Bstring} {req : Mongrel2Request}
    (parsed : mongrel2ParseRequest host headerlen bodylen raw = .ok (some req)) :
    ∃ (message : Bstring) (place count : Int) (body : Bytes), raw = some message ∧
      Served host message.data place count ∧ bdata req.body = some body ∧
      body = (message.data.drop (behind message.data place 58).toNat).take count.toNat := by
  obtain ⟨message, _, body, place, _, same, _, _, fits, cut, held⟩ := parse_inv host parsed
  obtain ⟨count, _, served, _, bytes⟩ := cutNetstring_inv host message fits cut
  rw [held]
  exact ⟨message, place, count, body.data, same, served, rfl, bytes⟩

end M2Handler.Handler

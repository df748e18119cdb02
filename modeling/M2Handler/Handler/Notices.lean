import M2Handler.Handler.Parsing
import M2Handler.Handler.Send

/-!
# Disconnect notices

A notice is a request whose body is the JSON text of an object with the member
`type` and the string `disconnect` as its value.  The body is counted, but it
is handed to `json_loads` as a C string, so the answer is about the bytes in
front of the first NUL.  It is the answer for the whole body unless a NUL
follows a notice.
-/

namespace M2Handler.Handler

open Machine Text Bstr

def DISCONNECT : Bstring := bsStatic (asciiBytes "disconnect") (by decide)

def typeKey : Bytes := asciiBytes "type"

def mongrel2RequestForDisconnect (libraries : Libraries) (req : Option Mongrel2Request) :
    Exec Int := do
  let req ← deref req
  let bodyStr := bdata req.body
  let jsonBody := bodyStr.bind fun text => libraries.jsonLoads (cString text)
  if jsonBody.isNone ∨ ¬ jsonBody.any Json.isObject then return 0
  else
    let methodObj := jsonObjectGet jsonBody typeKey
    if methodObj.isNone then return 0
    else
      let methodStr := jsonStringValue methodObj
      let methodBstr ← bfromcstr methodStr
      if methodObj.isNone ∨ bstrcmp methodBstr (some DISCONNECT) ≠ 0 then return 0
      else return 1

/-! ## JSON texts -/

/-- Which texts denote which values, as far as `json_loads` accepts them without flags. -/
structure JsonLanguage where
  Denotes : Bytes → Json → Prop
  /-- No JSON text has a NUL byte. -/
  nulFree : ∀ {text value}, Denotes text value → Absent 0 text
  /-- The escape of NUL is refused without `JSON_ALLOW_NUL`. -/
  member_nulFree : ∀ {text members key value}, Denotes text (.object members) →
    (key, Json.string value) ∈ members → Absent 0 value
  /-- No escape is shorter than what it stands for. -/
  member_length : ∀ {text members key value}, Denotes text (.object members) →
    (key, Json.string value) ∈ members → value.length ≤ text.length

/-- `json_loads` parses precisely the text of the C string. -/
def Precise (libraries : Libraries) (language : JsonLanguage) : Prop :=
  ∀ text, Absent 0 text →
    ∀ value, libraries.jsonLoads text = some value ↔ language.Denotes text value

/-- The JSON text of an object whose member `type` is the string `disconnect`. -/
def IsNotice (language : JsonLanguage) (text : Bytes) : Prop :=
  ∃ members, language.Denotes text (.object members) ∧
    jsonObjectGet (some (.object members)) typeKey = some (.string DISCONNECT.data)

/-- The answer is `1` for a notice, and `0` for every other body. -/
structure Recognises (libraries : Libraries) (language : JsonLanguage) (req : Mongrel2Request)
    (body : Bytes) : Prop where
  notice : mongrel2RequestForDisconnect libraries (some req) = .ok 1 ↔ IsNotice language body
  other : ¬ IsNotice language body → mongrel2RequestForDisconnect libraries (some req) = .ok 0

theorem IsNotice.nulFree {language : JsonLanguage} {text : Bytes}
    (notice : IsNotice language text) : Absent 0 text := by
  obtain ⟨members, denotes, -⟩ := notice
  exact language.nulFree denotes

/-! ## Members -/

theorem mem_of_jsonObjectGet {members : List (Bytes × Json)} {key : Bytes} {value : Json}
    (found : jsonObjectGet (some (.object members)) key = some value) :
    (key, value) ∈ members := by
  obtain ⟨member, first, rfl⟩ := Option.map_eq_some_iff.mp found
  have named := List.find?_some first
  rw [decide_eq_true_eq] at named
  rw [← named]
  exact List.mem_of_find?_eq_some first

/-- Only an object has members. -/
theorem jsonObjectGet_inv {value : Option Json} {key : Bytes} {member : Json}
    (found : jsonObjectGet value key = some member) :
    ∃ members, value = some (.object members) := by
  cases value with
  | none => cases found
  | some value =>
      cases value with
      | object members => exact ⟨members, rfl⟩
      | _ => cases found

/-- A string without NUL is read whole. -/
theorem jsonStringValue_eq_iff {value : Option Json} {text : Bytes}
    (nulFree : ∀ held, value = some (.string held) → Absent 0 held) :
    jsonStringValue value = some text ↔ value = some (.string text) := by
  cases value with
  | none => simp [jsonStringValue]
  | some value =>
      cases value with
      | string held => simp [jsonStringValue, cString_eq (nulFree held rfl)]
      | _ => simp [jsonStringValue]

/-! ## The answer -/

section Answer

variable (libraries : Libraries) {req : Mongrel2Request} {body : Bytes}

def typeString (text : Bytes) : Option Bytes :=
  jsonStringValue (jsonObjectGet (libraries.jsonLoads text) typeKey)

/-- The answer compares the string that is found in front of the first NUL. -/
theorem requestForDisconnect_eq (held : bdata req.body = some body)
    (short : ∀ text, typeString libraries (cString body) = some text → text.length < 2147483647) :
    mongrel2RequestForDisconnect libraries (some req) =
      .ok (if typeString libraries (cString body) = some DISCONNECT.data then 1 else 0) := by
  unfold typeString at short ⊢
  generalize loads : libraries.jsonLoads (cString body) = loaded at short ⊢
  have jsonBody : ((bdata req.body).bind fun text => libraries.jsonLoads (cString text)) =
      loaded := by
    rw [held, Option.bind_some, loads]
  rw [mongrel2RequestForDisconnect, deref_some, Exec.ok_bind]
  dsimp only
  rw [jsonBody]
  cases get : jsonObjectGet loaded typeKey with
  | none =>
      -- The early returns answer what the comparison with a null string would.
      rw [if_neg (show jsonStringValue none ≠ some DISCONNECT.data from by simp [jsonStringValue])]
      split
      · rfl
      · rw [if_pos Option.isNone_none]
        rfl
  | some methodObj =>
      obtain ⟨members, rfl⟩ := jsonObjectGet_inv get
      rw [get] at short
      obtain ⟨methodBstr, copied, text⟩ := bfromcstr_bdata short
      have compared : bstrcmp methodBstr (some DISCONNECT) = 0 ↔
          bdata methodBstr = some DISCONNECT.data := bstrcmp_eq_zero_iff methodBstr (by decide)
      rw [text] at compared
      rw [if_neg (by simp [Json.isObject]), if_neg (by simp), copied, Exec.ok_bind]
      by_cases same : jsonStringValue (some methodObj) = some DISCONNECT.data
      · rw [if_neg (by simp [compared.mpr same]), if_pos same]
        rfl
      · rw [if_pos (.inr (mt compared.mp same)), if_neg same]
        rfl

variable {libraries} {language : JsonLanguage} (precise : Precise libraries language)
include precise

/-- A string in a loaded object. -/
theorem loaded_string {text key held : Bytes} (nulFree : Absent 0 text)
    (found : jsonObjectGet (libraries.jsonLoads text) key = some (.string held)) :
    Absent 0 held ∧ held.length ≤ text.length := by
  obtain ⟨members, loaded⟩ := jsonObjectGet_inv found
  have denotes := (precise text nulFree _).mp loaded
  rw [loaded] at found
  have member := mem_of_jsonObjectGet found
  exact ⟨language.member_nulFree denotes member, language.member_length denotes member⟩

theorem typeString_iff {text name : Bytes} (nulFree : Absent 0 text) :
    typeString libraries text = some name ↔
      jsonObjectGet (libraries.jsonLoads text) typeKey = some (.string name) :=
  jsonStringValue_eq_iff fun _ found => (loaded_string precise nulFree found).1

theorem isNotice_iff {text : Bytes} (nulFree : Absent 0 text) :
    IsNotice language text ↔ typeString libraries text = some DISCONNECT.data := by
  rw [typeString_iff precise nulFree]
  constructor
  · rintro ⟨members, denotes, found⟩
    rw [(precise text nulFree _).mpr denotes]
    exact found
  · intro found
    obtain ⟨members, loaded⟩ := jsonObjectGet_inv found
    rw [loaded] at found
    exact ⟨members, (precise text nulFree _).mp loaded, found⟩

/-- The answer is about the bytes in front of the first NUL. -/
theorem requestForDisconnect_cString (held : bdata req.body = some body)
    (short : body.length < 2147483647) :
    (IsNotice language (cString body) →
      mongrel2RequestForDisconnect libraries (some req) = .ok 1) ∧
    (¬ IsNotice language (cString body) →
      mongrel2RequestForDisconnect libraries (some req) = .ok 0) := by
  have nulFree := cString_nulFree body
  have answer := requestForDisconnect_eq libraries held fun text read => by
    have found := (typeString_iff precise nulFree).mp read
    have length := (loaded_string precise nulFree found).2
    have cut := length_cString_le body
    omega
  rw [answer, isNotice_iff precise nulFree]
  exact ⟨fun notice => by rw [if_pos notice], fun other => by rw [if_neg other]⟩

/-- Such answers are right for the whole body exactly when no NUL follows a notice. -/
theorem recognises_iff (held : bdata req.body = some body) (short : body.length < 2147483647) :
    Recognises libraries language req body ↔
      Absent 0 body ∨ ¬ IsNotice language (cString body) := by
  obtain ⟨notice, other⟩ := requestForDisconnect_cString precise held short
  rw [← cString_agrees_iff (fun _ => IsNotice.nulFree) body]
  have one : mongrel2RequestForDisconnect libraries (some req) = .ok 1 ↔
      IsNotice language (cString body) := by
    refine ⟨fun answered => ?_, notice⟩
    by_contra none
    rw [other none] at answered
    cases answered
  constructor
  · intro recognised
    exact one.symm.trans recognised.notice
  · intro agrees
    exact ⟨one.trans agrees, fun none => other (mt agrees.mp none)⟩

end Answer

/-- The answer for a parsed request is about its whole body, unless a NUL follows a notice. -/
theorem recognises_notices_iff (libraries : Libraries) (language : JsonLanguage)
    (precise : Precise libraries language) (host : Host) (headerlen bodylen : Int32)
    (raw : Option Bstring) (req : Mongrel2Request)
    (parsed : mongrel2ParseRequest host headerlen bodylen raw = .ok (some req)) :
    ∃ body, bdata req.body = some body ∧
      (Recognises libraries language req body ↔
        Absent 0 body ∨ ¬ IsNotice language (cString body)) := by
  obtain ⟨message, place, count, body, -, served, held, cut⟩ := parse_counts_body host parsed
  have counted : body.length ≤ count.toNat := by
    rw [cut]
    exact List.length_take_le _ _
  have short := served.short
  exact ⟨body, held, recognises_iff precise held (by omega)⟩

/-! ## The notice of Mongrel2 -/

def noticeText : Bytes := asciiBytes "\x7b\"type\":\"disconnect\"\x7d"

def noticeValue : Json := .object [(typeKey, .string DISCONNECT.data)]

def noticeLanguage : JsonLanguage where
  Denotes text value := text = noticeText ∧ value = noticeValue
  nulFree := by
    rintro text value ⟨rfl, -⟩
    decide
  member_nulFree := by
    rintro text members key value ⟨-, object⟩ member
    cases object
    cases List.mem_singleton.mp member
    decide
  member_length := by
    rintro text members key value ⟨rfl, object⟩ member
    cases object
    cases List.mem_singleton.mp member
    decide

def noticeLibraries : Libraries where
  jsonLoads text := if text = noticeText then some noticeValue else none
  sha1 _ := List.replicate 20 0
  length_sha1 _ := List.length_replicate

theorem precise_notice : Precise noticeLibraries noticeLanguage := by
  intro text _ value
  change (if text = noticeText then some noticeValue else none) = some value ↔
    text = noticeText ∧ value = noticeValue
  split
  · rename_i same
    rw [Option.some.injEq]
    exact ⟨fun object => ⟨same, object.symm⟩, fun denotes => denotes.2.symm⟩
  · rename_i differs
    exact ⟨fun impossible => (by cases impossible), fun denotes => absurd denotes.1 differs⟩

theorem isNotice_noticeText : IsNotice noticeLanguage noticeText :=
  ⟨[(typeKey, .string DISCONNECT.data)], ⟨rfl, rfl⟩, rfl⟩

/-- The message `u 7 @* 2:{},` with a body. -/
def noticeMessage (body : Bytes) : Bytes :=
  documented [117] (decimal 7) [64, 42] [123, 125] body

theorem parse_noticeMessage (body : Bytes) (fits : (noticeMessage body).length ≤ 2147483647) :
    ∃ req, mongrel2ParseRequest linuxHost 0 0 (some ⟨64, noticeMessage body, fits⟩) =
        .ok (some req) ∧ bdata req.body = some body := by
  have bytes : (⟨64, noticeMessage body, fits⟩ : Bstring).data =
      documented [117] (decimal 7) [64, 42] [123, 125] body := rfl
  obtain ⟨req, parsed, described⟩ := describes_documented linuxHost 0 0 (by decide)
    (decimal_no_space 7) (by decide) bytes
  exact ⟨req, parsed, described.body⟩

/-- The notice without more is recognised. -/
theorem recognises_notices_iff_documented :
    ∃ req, mongrel2ParseRequest linuxHost 0 0
        (some ⟨64, noticeMessage noticeText, by decide⟩) = .ok (some req) ∧
      bdata req.body = some noticeText ∧ IsNotice noticeLanguage noticeText ∧
      mongrel2RequestForDisconnect noticeLibraries (some req) = .ok 1 := by
  obtain ⟨req, parsed, held⟩ := parse_noticeMessage noticeText (by decide)
  obtain ⟨body, same, recognises⟩ := recognises_notices_iff noticeLibraries noticeLanguage
    precise_notice linuxHost 0 0 _ req parsed
  rw [held] at same
  cases same
  have recognised := recognises.mpr (.inl isNotice_noticeText.nulFree)
  exact ⟨req, parsed, held, isNotice_noticeText, recognised.notice.mpr isNotice_noticeText⟩

/-- With a NUL behind it, it is still taken for a notice. -/
theorem notice_behind_nul :
    Precise noticeLibraries noticeLanguage ∧
    ∃ req, mongrel2ParseRequest linuxHost 0 0
        (some ⟨64, noticeMessage (noticeText ++ [0]), by decide⟩) = .ok (some req) ∧
      bdata req.body = some (noticeText ++ [0]) ∧
      ¬ IsNotice noticeLanguage (noticeText ++ [0]) ∧
      mongrel2RequestForDisconnect noticeLibraries (some req) = .ok 1 ∧
      ¬ Recognises noticeLibraries noticeLanguage req (noticeText ++ [0]) := by
  obtain ⟨req, parsed, held⟩ := parse_noticeMessage (noticeText ++ [0]) (by decide)
  have front : cString (noticeText ++ [0]) = noticeText := by decide
  have other : ¬ IsNotice noticeLanguage (noticeText ++ [0]) := fun notice =>
    absurd notice.nulFree (by decide)
  obtain ⟨answers, -⟩ := requestForDisconnect_cString precise_notice held (by decide)
  rw [front] at answers
  have answered := answers isNotice_noticeText
  exact ⟨precise_notice, req, parsed, held, other, answered,
    fun recognised => other (recognised.notice.mp answered)⟩

end M2Handler.Handler

import M2Handler.Bstr.Contracts
import M2Handler.Handler.Request

/-!
# Cuts of the request parser

A cut takes the bytes between a place and the next delimiter.  When the delimiter is
missing, the search fails with `-1`: the cut is empty, and the parser goes on at the
front of the message.
-/

namespace M2Handler.Handler

open Machine Text Bstr

/-! ## The bytes of a cut -/

def restFrom (raw : Bytes) (place : Int) : Bytes :=
  if place < 0 then [] else raw.drop place.toNat

/-- The bytes in front of the delimiter, none when it is missing. -/
def textBefore (raw : Bytes) (place : Int) (c : UInt8) : Bytes :=
  if c ∈ restFrom raw place then (restFrom raw place).takeWhile (· ≠ c) else []

def behind (raw : Bytes) (place : Int) (c : UInt8) : Int :=
  if c ∈ restFrom raw place then place + (textBefore raw place c).length + 1 else 0

section Cut

variable {raw field after : Bytes} {place : Int} {c : UInt8}

theorem textBefore_missing (missing : c ∉ restFrom raw place) : textBefore raw place c = [] :=
  if_neg missing

theorem behind_missing (missing : c ∉ restFrom raw place) : behind raw place c = 0 :=
  if_neg missing

theorem textBefore_cut (cut : restFrom raw place = field ++ c :: after) (absent : Absent c field) :
    textBefore raw place c = field := by
  have whole : ∀ byte ∈ field, decide (byte ≠ c) = true := fun byte member =>
    decide_eq_true (absent byte member)
  rw [textBefore, cut, if_pos (by simp), List.takeWhile_append_of_pos whole,
    List.takeWhile_cons_of_neg (by simp), List.append_nil]

theorem behind_cut (cut : restFrom raw place = field ++ c :: after) (absent : Absent c field) :
    behind raw place c = place + field.length + 1 := by
  rw [behind, textBefore_cut cut absent, cut, if_pos (by simp)]

theorem exists_cut (found : c ∈ restFrom raw place) :
    ∃ field after, restFrom raw place = field ++ c :: after ∧ Absent c field := by
  obtain ⟨field, after, cut, absent⟩ := List.eq_append_cons_of_mem found
  refine ⟨field, after, cut, ?_⟩
  rintro byte member rfl
  exact absent member

/-- What is behind a delimiter that is there. -/
theorem restFrom_behind (nonneg : 0 ≤ place) (cut : restFrom raw place = field ++ c :: after)
    (absent : Absent c field) : restFrom raw (behind raw place c) = after := by
  have dropped : raw.drop place.toNat = field ++ c :: after := by
    rw [← cut, restFrom, if_neg (by omega)]
  have index : (place + field.length + 1).toNat = place.toNat + (field ++ [c]).length := by
    rw [List.length_append, List.length_singleton]
    omega
  rw [behind_cut cut absent, restFrom, if_neg (by omega), index, ← List.drop_drop, dropped,
    show field ++ c :: after = (field ++ [c]) ++ after by simp, List.drop_left]

theorem behind_found (found : c ∈ restFrom raw place) :
    0 ≤ place ∧ place < behind raw place c ∧ behind raw place c ≤ raw.length := by
  have nonneg : 0 ≤ place := by
    by_contra negative
    rw [restFrom, if_pos (by omega)] at found
    cases found
  obtain ⟨field, after, cut, absent⟩ := exists_cut found
  have length := congrArg List.length cut
  rw [restFrom, if_neg (by omega), List.length_drop, List.length_append, List.length_cons]
    at length
  rw [behind_cut cut absent]
  omega

theorem behind_bounds (raw : Bytes) (place : Int) (c : UInt8) :
    0 ≤ behind raw place c ∧ behind raw place c ≤ raw.length := by
  by_cases found : c ∈ restFrom raw place
  · have bounds := behind_found found
    omega
  · rw [behind_missing found]
    omega

theorem restFrom_outside (outside : place < 0 ∨ raw.length ≤ place) : restFrom raw place = [] := by
  rw [restFrom]
  split
  · rfl
  · exact List.drop_eq_nil_of_le (by omega)

/-- Nothing is found where nothing is left. -/
theorem cut_nothing (nothing : restFrom raw place = []) (c : UInt8) :
    textBefore raw place c = [] ∧ behind raw place c = 0 := by
  have missing : c ∉ restFrom raw place := by
    rw [nothing]
    exact List.not_mem_nil
  exact ⟨textBefore_missing missing, behind_missing missing⟩

/-- The rest of a message whose front is given. -/
theorem restFrom_append {before rest : Bytes} (cut : raw = before ++ rest) :
    restFrom raw before.length = rest := by
  rw [restFrom, if_neg (by omega), Int.toNat_natCast, cut, List.drop_left]

end Cut

/-! ## The places of the fields -/

def connIdPlace (raw : Bytes) : Int := behind raw 0 32

def connIdText (raw : Bytes) : Bytes := textBefore raw (connIdPlace raw) 32

def pathPlace (raw : Bytes) : Int := behind raw (connIdPlace raw) 32

def headerPlace (raw : Bytes) : Int := behind raw (pathPlace raw) 32

def headerText (raw : Bytes) : Bytes := textBefore raw (headerPlace raw) 58

def headerStart (raw : Bytes) : Int := behind raw (headerPlace raw) 58

/-- The place behind headers of this length and the byte after them. -/
def bodyPlace (raw : Bytes) (count : Int) : Int := headerStart raw + count + 1

def bodyText (raw : Bytes) (count : Int) : Bytes := textBefore raw (bodyPlace raw count) 58

theorem isInt_behind (raw : Bstring) (place : Int) (c : UInt8) :
    IsInt (behind raw.data place c) := by
  have sized := raw.fits
  have bounds := behind_bounds raw.data place c
  unfold IsInt intMin intMax
  omega

theorem headerPlace_fits (raw : Bstring) : IsInt (headerPlace raw.data) :=
  isInt_behind raw _ 32

/-! ## Fields -/

variable (host : Host)

theorem binchr_eq {raw delimiter : Bstring} {c : UInt8} (only : delimiter.data = [c])
    (place : Int) : binchr (some raw) place delimiter = behind raw.data place c - 1 := by
  rw [binchr]
  split
  · rename_i empty
    rw [(cut_nothing (restFrom_outside empty) c).2]
    rfl
  · rename_i inside
    have rest : restFrom raw.data place = raw.data.drop place.toNat := if_neg (by omega)
    rw [only]
    dsimp only
    rw [bstrchrp, if_neg (by omega), searchFrom, ← rest]
    by_cases found : c ∈ restFrom raw.data place
    · obtain ⟨field, after, cut, absent⟩ := exists_cut found
      have none : field.findIdx? (· = c) = none := by
        rw [List.findIdx?_eq_none_iff]
        intro byte member
        exact decide_eq_false (absent byte member)
      have index : (restFrom raw.data place).findIdx? (· = c) = some field.length := by
        rw [cut, List.findIdx?_append, none]
        simp [List.findIdx?_cons]
      rw [index, behind_cut cut absent]
      dsimp only
      omega
    · have none : (restFrom raw.data place).findIdx? (· = c) = none := by
        rw [List.findIdx?_eq_none_iff]
        rintro byte member
        exact decide_eq_false fun same => found (same ▸ member)
      rw [none, behind_missing found]
      rfl

theorem cut_makes (trapv : Bool) (raw : Bstring) {place : Int} (fits : IsInt place) (c : UInt8) :
    IsInt (behind raw.data place c - 1 - place) ∧
      Makes (bmidstr trapv (some raw) place (behind raw.data place c - 1 - place))
        (textBefore raw.data place c) := by
  have sized := raw.fits
  unfold IsInt intMin intMax at fits ⊢
  by_cases found : c ∈ restFrom raw.data place
  · obtain ⟨nonneg, -, inside⟩ := behind_found found
    obtain ⟨field, after, cut, absent⟩ := exists_cut found
    have difference : behind raw.data place c - 1 - place = field.length := by
      rw [behind_cut cut absent]
      omega
    have dropped : raw.data.drop place.toNat = field ++ c :: after := by
      rw [← cut, restFrom, if_neg (by omega)]
    have made := bmidstr_eq trapv raw place field.length nonneg fits.2
      (by unfold Bstring.slen; omega)
    rw [dropped, Int.toNat_natCast, List.take_left] at made
    rw [difference, textBefore_cut cut absent]
    exact ⟨by omega, made⟩
  · rw [behind_missing found, textBefore_missing found]
    refine ⟨by omega, ?_⟩
    by_cases negative : place < 0
    · exact bmidstr_before trapv raw negative (by unfold IsInt intMin intMax; omega) (by omega)
    · have made := bmidstr_eq trapv raw place (0 - 1 - place) (by omega) fits.2
        (by unfold Bstring.slen; omega)
      have zero : (0 - 1 - place).toNat = 0 := by omega
      rw [zero, List.take_zero] at made
      exact made

/-- A cut never fails on a message that is there. -/
theorem cutField_eq (raw : Bstring) {place : Int} (fits : IsInt place) {delimiter : Bstring}
    {c : UInt8} (only : delimiter.data = [c]) :
    ∃ text, cutField host (some raw) place delimiter =
        .ok (behind raw.data place c - 1, some text) ∧
      text.data = textBefore raw.data place c := by
  obtain ⟨difference, text, made, -, bytes⟩ := cut_makes host.trapv raw fits c
  refine ⟨text, ?_, bytes⟩
  rw [cutField, binchr_eq only, arith_eq _ difference, Exec.ok_bind, made]
  rfl

/-! ## Netstrings -/

/-- The text begins with a number for `sscanf`. -/
def Numbered (text : Bytes) : Prop := (scanInt (cString text)).isSome = true

/-- A length that the parser may take from this text: what `sscanf` stores for the number
at its front, and any `int` when there is none. -/
def Taken (text : Bytes) (count : Int) : Prop :=
  ∃ initial, (sscanfInt host text initial).toInt = count

/-- A length at this place that the message can serve. -/
structure Served (raw : Bytes) (place count : Int) : Prop where
  taken : Taken host (textBefore raw place 58) count
  nonneg : 0 ≤ count
  inside : behind raw place 58 + count ≤ raw.length
  -- A string of `INT_MAX` bytes has no room for its NUL.
  short : count < 2147483647

theorem isInt_toInt32 (value : Int32) : IsInt value.toInt := by
  have upper := value.toInt_lt
  have lower := value.le_toInt
  unfold IsInt intMin intMax
  omega

/-- A number at the front of the text makes the first contents irrelevant. -/
theorem sscanfInt_initial {text : Bytes} (number : Numbered text) (first second : Int32) :
    sscanfInt host text first = sscanfInt host text second := by
  obtain ⟨value, scanned⟩ := Option.isSome_iff_exists.mp number
  rw [sscanfInt, sscanfInt, scanned]

/-- Without a number the first contents stay. -/
theorem sscanfInt_unnumbered {text : Bytes} (missing : ¬ Numbered text) (initial : Int32) :
    sscanfInt host text initial = initial := by
  have scanned : scanInt (cString text) = none := by
    rw [Numbered, Option.not_isSome_iff_eq_none] at missing
    exact missing
  rw [sscanfInt, scanned]

theorem not_numbered_nil : ¬ Numbered [] := Bool.false_ne_true

section Netstring

variable (raw : Bstring) {place : Int} (fits : IsInt place) (initial : Int32) {count : Int}
  (counted : (sscanfInt host (textBefore raw.data place 58) initial).toInt = count)
include fits counted

/-- The length is scanned, and as many bytes are cut. -/
theorem cutNetstring_eq :
    cutNetstring host (some raw) place initial =
      arith host.trapv (behind raw.data place 58 + count) >>= fun stop =>
        arith host.trapv (stop - behind raw.data place 58) >>= fun length =>
          bmidstr host.trapv (some raw) (behind raw.data place 58) length >>= fun text =>
            match text with
            | none => .ok none
            | some text => if text.slen ≠ count then .ok none else .ok (some (stop, text)) := by
  have sized := raw.fits
  have bounds := behind_bounds raw.data place 58
  obtain ⟨templen, cutEq, bytes⟩ := cutField_eq host raw fits (show COLON.data = [58] from rfl)
  have start : arith host.trapv (behind raw.data place 58 - 1 + 1) =
      .ok (behind raw.data place 58) := by
    rw [Int.sub_add_cancel]
    exact arith_eq _ (by unfold IsInt intMin intMax; omega)
  rw [cutNetstring, cutEq]
  simp only [Exec.ok_bind, bdata, deref_some, bytes]
  rw [counted, start]
  rfl

/-- The end of the netstring is not an `int`. -/
theorem cutNetstring_overflows (trapv : host.trapv = true)
    (long : 2147483647 < behind raw.data place 58 + count) :
    cutNetstring host (some raw) place initial = .error .signedOverflow := by
  have trapped : arith host.trapv (behind raw.data place 58 + count) = .error .signedOverflow := by
    rw [arith, if_neg (by unfold IsInt intMin intMax; omega), trapv]
    rfl
  rw [cutNetstring_eq host raw fits initial counted, trapped]
  rfl

variable (passes : host.trapv = true → behind raw.data place 58 + count ≤ 2147483647)
include passes

/-- Otherwise the cut is made, with the exact length. -/
theorem cutNetstring_cuts :
    cutNetstring host (some raw) place initial =
      bmidstr host.trapv (some raw) (behind raw.data place 58) count >>= fun text =>
        match text with
        | none => .ok none
        | some text =>
            if text.slen ≠ count then .ok none
            else .ok (some (toInt (behind raw.data place 58 + count), text)) := by
  have sized := raw.fits
  have bounds := behind_bounds raw.data place 58
  have small := isInt_toInt32 (sscanfInt host (textBefore raw.data place 58) initial)
  rw [counted] at small
  unfold IsInt intMin intMax at small
  have computes {exact : Int} (within : host.trapv = true → IsInt exact) :
      arith host.trapv exact = .ok (toInt exact) := by
    cases trapv : host.trapv with
    | false => exact arith_wraps exact
    | true => rw [arith_eq _ (within trapv), toInt_eq (within trapv)]
  have stop := computes fun trapv => show IsInt (behind raw.data place 58 + count) from by
    have upper := passes trapv
    unfold IsInt intMin intMax
    omega
  have difference : toInt (toInt (behind raw.data place 58 + count) - behind raw.data place 58) =
      count := by
    unfold toInt
    omega
  have length := computes fun trapv =>
    show IsInt (toInt (behind raw.data place 58 + count) - behind raw.data place 58) from by
      have upper := passes trapv
      have same : toInt (behind raw.data place 58 + count) = behind raw.data place 58 + count :=
        toInt_eq (by unfold IsInt intMin intMax; omega)
      rw [same]
      unfold IsInt intMin intMax
      omega
  rw [cutNetstring_eq host raw fits initial counted, stop, Exec.ok_bind, length, Exec.ok_bind,
    difference]

/-- A length that the message can serve is accepted. -/
theorem cutNetstring_served (served : Served host raw.data place count) :
    ∃ text, cutNetstring host (some raw) place initial =
        .ok (some (behind raw.data place 58 + count, text)) ∧
      text.data = (raw.data.drop (behind raw.data place 58).toNat).take count.toNat := by
  obtain ⟨-, nonneg, inside, short⟩ := served
  have sized := raw.fits
  have bounds := behind_bounds raw.data place 58
  obtain ⟨text, made, -, bytes⟩ := bmidstr_eq host.trapv raw (behind raw.data place 58) count
    bounds.1 (by omega) (by omega)
  have length : text.slen = count := by
    rw [Bstring.slen, bytes, List.length_take, List.length_drop]
    omega
  have stop : toInt (behind raw.data place 58 + count) = behind raw.data place 58 + count :=
    toInt_eq (by unfold IsInt intMin intMax; omega)
  refine ⟨text, ?_, bytes⟩
  rw [cutNetstring_cuts host raw fits initial counted passes, made, Exec.ok_bind]
  dsimp only
  rw [if_neg (by rw [length]; exact not_not.mpr rfl), stop]

/-- A length that the message cannot serve is refused, where the cut is shorter than
`INT_MAX`. -/
theorem cutNetstring_refuses (unserved : ¬ Served host raw.data place count)
    (cut : min count (raw.slen - behind raw.data place 58) < 2147483647) :
    cutNetstring host (some raw) place initial = .ok none := by
  have sized := raw.fits
  have bounds := behind_bounds raw.data place 58
  obtain ⟨text, made, -, bytes⟩ := bmidstr_eq host.trapv raw (behind raw.data place 58) count
    bounds.1 (by omega) cut
  have mismatch : text.slen ≠ count := by
    intro same
    rw [Bstring.slen, bytes, List.length_take, List.length_drop] at same
    refine unserved ⟨⟨initial, counted⟩, by omega, by omega, ?_⟩
    unfold Bstring.slen at cut
    omega
  rw [cutNetstring_cuts host raw fits initial counted passes, made, Exec.ok_bind]
  dsimp only
  rw [if_pos mismatch]

/-- Any other length is refused; only `INT_MAX` bytes from the front of the message leave
their block. -/
theorem cutNetstring_unserved (unserved : ¬ Served host raw.data place count) :
    cutNetstring host (some raw) place initial = .ok none ∨
      behind raw.data place 58 = 0 ∧ count = 2147483647 ∧
        cutNetstring host (some raw) place initial = .error .outOfBounds := by
  have sized := raw.fits
  have bounds := behind_bounds raw.data place 58
  by_cases longest : min count (raw.slen - behind raw.data place 58) < 2147483647
  · exact .inl (cutNetstring_refuses host raw fits initial counted passes unserved longest)
  · right
    have small := isInt_toInt32 (sscanfInt host (textBefore raw.data place 58) initial)
    rw [counted] at small
    unfold IsInt intMin intMax at small
    unfold Bstring.slen at longest
    have front : behind raw.data place 58 = 0 := by omega
    have whole : raw.data.length = 2147483647 := by omega
    have all : count = 2147483647 := by omega
    rw [cutNetstring_cuts host raw fits initial counted passes, front, all,
      bmidstr_longest host.trapv whole]
    exact ⟨rfl, rfl, rfl⟩

end Netstring

/-- Where overflows wrap, a message shorter than `INT_MAX` is cut or refused. -/
theorem cutNetstring_returns (wraps : host.trapv = false) {raw : Bstring}
    (short : raw.data.length < 2147483647) {place : Int} (fits : IsInt place) (initial : Int32) :
    ∃ part, cutNetstring host (some raw) place initial = .ok part := by
  generalize counted : (sscanfInt host (textBefore raw.data place 58) initial).toInt = count
  have passes : host.trapv = true → behind raw.data place 58 + count ≤ 2147483647 := by simp [wraps]
  by_cases served : Served host raw.data place count
  · obtain ⟨text, cut, -⟩ := cutNetstring_served host raw fits initial counted passes served
    exact ⟨_, cut⟩
  · have bounds := behind_bounds raw.data place 58
    refine ⟨none, cutNetstring_refuses host raw fits initial counted passes served ?_⟩
    unfold Bstring.slen
    omega

/-- What an accepted netstring says about the message. -/
theorem cutNetstring_inv (raw : Bstring) {place : Int} (fits : IsInt place) {initial : Int32}
    {stop : Int} {text : Bstring}
    (accepted : cutNetstring host (some raw) place initial = .ok (some (stop, text))) :
    ∃ count, (sscanfInt host (textBefore raw.data place 58) initial).toInt = count ∧
      Served host raw.data place count ∧ stop = behind raw.data place 58 + count ∧
        text.data = (raw.data.drop (behind raw.data place 58).toNat).take count.toNat := by
  generalize counted : (sscanfInt host (textBefore raw.data place 58) initial).toInt = count
  refine ⟨count, rfl, ?_⟩
  by_cases passes : host.trapv = true → behind raw.data place 58 + count ≤ 2147483647
  · by_cases served : Served host raw.data place count
    · obtain ⟨other, same, bytes⟩ := cutNetstring_served host raw fits initial counted passes served
      rw [same] at accepted
      cases accepted
      exact ⟨served, rfl, bytes⟩
    · rcases cutNetstring_unserved host raw fits initial counted passes served with
        refused | ⟨-, -, stopped⟩
      · rw [refused] at accepted
        cases accepted
      · rw [stopped] at accepted
        cases accepted
  · obtain ⟨trapv, long⟩ := Classical.not_imp.mp passes
    rw [cutNetstring_overflows host raw fits initial counted trapv (by omega)] at accepted
    cases accepted

/-! ## From the headers to the body -/

/-- The place of the body is an `int`, unless the headers end at `INT_MAX`; when it wraps
there, nothing is found at it, as nothing is behind the message. -/
theorem next_place {raw : Bstring} {count : Int}
    (served : Served host raw.data (headerPlace raw.data) count)
    (room : ¬ (host.trapv = true ∧ headerStart raw.data + count = 2147483647)) :
    ∃ next, arith host.trapv (headerStart raw.data + count + 1) = .ok next ∧ IsInt next ∧
      textBefore raw.data next 58 = bodyText raw.data count ∧
      (headerStart raw.data + count < 2147483647 → next = bodyPlace raw.data count) := by
  have sized := raw.fits
  have start : 0 ≤ headerStart raw.data := (behind_bounds raw.data (headerPlace raw.data) 58).1
  have nonneg := served.nonneg
  have inside : headerStart raw.data + count ≤ raw.data.length := served.inside
  rw [bodyText, bodyPlace]
  by_cases last : headerStart raw.data + count = 2147483647
  · have wraps : host.trapv = false := Bool.not_eq_true _ ▸ fun trapv => room ⟨trapv, last⟩
    have total : headerStart raw.data + count + 1 = 2147483648 := by omega
    have wrapped : toInt 2147483648 < 0 := by decide
    have outside : (2147483648 : Int) < 0 ∨ (raw.data.length : Int) ≤ 2147483648 :=
      .inr (by omega)
    have front : restFrom raw.data (toInt 2147483648) = [] := restFrom_outside (.inl wrapped)
    have text := (cut_nothing front 58).1
    have endText := (cut_nothing (restFrom_outside outside) 58).1
    rw [total, wraps]
    exact ⟨toInt 2147483648, arith_wraps _, isInt_toInt _, text.trans endText.symm,
      fun short => absurd last (by omega)⟩
  · have fits : IsInt (headerStart raw.data + count + 1) := by
      unfold IsInt intMin intMax
      omega
    exact ⟨_, arith_eq _ fits, fits, rfl, fun _ => rfl⟩

theorem next_traps {stop : Int} (last : host.trapv = true ∧ stop = 2147483647) :
    arith host.trapv (stop + 1) = .error .signedOverflow := by
  rw [last.1, last.2]
  rfl

end M2Handler.Handler

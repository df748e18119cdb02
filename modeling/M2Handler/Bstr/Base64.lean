import M2Handler.Bstr.Contracts
import M2Handler.Text.Unbase64

/-!
# Reading Base64 from a string

`bBase64DecodeEx` reads every text as the standard does: it passes over what is not in
the alphabet, and it reports a text that is cut off, or returns the null pointer when
the caller does not ask for a report.
-/

namespace M2Handler.Bstr

open Machine Text

/-! ## The function -/

def b64Pad : Int := -2

def b64Err : Int := -1

def base64DecodeSymbol (alpha : UInt8) : Int :=
  if alpha ≥ 65 ∧ alpha ≤ 90 then alpha.toNat - 65
  else if alpha ≥ 97 ∧ alpha ≤ 122 then 26 + (alpha.toNat - 97)
  else if alpha ≥ 48 ∧ alpha ≤ 57 then 52 + (alpha.toNat - 48)
  else if alpha = 43 then 62
  else if alpha = 47 then 63
  else if alpha = 61 then b64Pad
  else b64Err

/-- Which of the four inner loops runs, with the bytes begun so far. -/
inductive Base64Step where
  | first
  | second (c0 : UInt8)
  | third (c0 c1 : UInt8)
  | fourth (c0 c1 c2 : UInt8)

/-- The calls of `bconchar` joined by `||`: the result of the last one made. -/
def bconcharsTo (out : Option Bstring) : Bytes → Exec (Int × Option Bstring)
  | [] => return (0, out)
  | c :: rest => do
      let (status, out) ← bconchar out c
      if status < 0 then return (status, out) else bconcharsTo out rest

/-- The string, or null, then `*boolTruncError` if the caller gave it. -/
abbrev Decoded := Option Bstring × Option Int

/-- A text that is cut off: it is reported, or there is no string. -/
def truncError (boolTruncError : Option Int) (out : Option Bstring) (code : Int) : Decoded :=
  match boolTruncError with
  | some _ => (out, some code)
  | none => (none, none)

def base64Padded (boolTruncError : Option Int) (out : Option Bstring) (rest : Bytes) :
    Base64Step → Exec Decoded
  | .third c0 _ => do
      if rest.head? ≠ some 61 then return truncError boolTruncError out 1
      else
        let (status, out) ← bconchar out c0
        if status < 0 then return truncError boolTruncError out 1
        else return (out, boolTruncError)
  | .fourth c0 c1 _ => do
      let (status, out) ← bconcharsTo out [c0, c1]
      if status < 0 then return truncError boolTruncError out 1
      else return (out, boolTruncError.map fun _ => 0)
  | _ => return truncError boolTruncError out 1

def base64DecodeLoop (boolTruncError : Option Int) (step : Base64Step) (out : Option Bstring) :
    Bytes → Exec Decoded
  | [] =>
      match step with
      | .first => return (out, boolTruncError)
      | _ => return truncError boolTruncError out 1
  | c :: rest =>
      if c = 61 then base64Padded boolTruncError out rest step
      else
        let v := base64DecodeSymbol c
        if v < 0 then base64DecodeLoop boolTruncError step out rest
        else
          let v := v.toNat
          match step with
          | .first =>
              base64DecodeLoop boolTruncError (.second (UInt8.ofNat (v <<< 2))) out rest
          | .second c0 =>
              base64DecodeLoop boolTruncError
                (.third (c0 ||| UInt8.ofNat (v >>> 4)) (UInt8.ofNat (v <<< 4))) out rest
          | .third c0 c1 =>
              base64DecodeLoop boolTruncError
                (.fourth c0 (c1 ||| UInt8.ofNat (v >>> 2)) (UInt8.ofNat (v <<< 6))) out rest
          | .fourth c0 c1 c2 => do
              let (status, out) ← bconcharsTo out [c0, c1, c2 ||| UInt8.ofNat v]
              if status < 0 then return truncError boolTruncError out (-1)
              else base64DecodeLoop boolTruncError .first out rest

def bBase64DecodeEx (b : Option Bstring) (boolTruncError : Option Int) : Exec Decoded :=
  match b with
  | none => return (none, boolTruncError)
  | some b => do
      let boolTruncError := boolTruncError.map fun _ => 0
      let out ← bfromcstr (some [])
      base64DecodeLoop boolTruncError .first out b.data

/-! ## Characters -/

theorem base64DecodeSymbol_ofNat :
    ∀ code < 256, base64DecodeSymbol (UInt8.ofNat code) =
      match base64Value (UInt8.ofNat code) with
      | some value => (value : Int)
      | none => if code = 61 then -2 else -1 := by
  decide +kernel

/-- A character of the alphabet has its value. -/
theorem base64DecodeSymbol_some {c : UInt8} {value : Nat} (found : base64Value c = some value) :
    base64DecodeSymbol c = value := by
  have decoded := base64DecodeSymbol_ofNat c.toNat c.toNat_lt
  rwa [UInt8.ofNat_toNat, found] at decoded

theorem base64DecodeSymbol_none {c : UInt8} (absent : base64Value c = none) :
    base64DecodeSymbol c < 0 := by
  have decoded := base64DecodeSymbol_ofNat c.toNat c.toNat_lt
  rw [UInt8.ofNat_toNat, absent] at decoded
  rw [decoded]
  dsimp only
  split <;> decide

/-- Two values that share a byte. -/
theorem shared_byte {v w up down : Nat} (fits : w / 2 ^ down < 2 ^ up) :
    UInt8.ofNat (v <<< up) ||| UInt8.ofNat (w >>> down) =
      UInt8.ofNat (v * 2 ^ up + w / 2 ^ down) := by
  rw [← UInt8.ofNat_or, Nat.shiftRight_eq_div_pow, ← Nat.shiftLeft_add_eq_or_of_lt fits,
    Nat.shiftLeft_eq]

theorem bconcharsTo_eq {out : Bstring} (owned : Owned out) {chars : Bytes}
    (short : out.data.length + chars.length < 2147483647) :
    ∃ longer, bconcharsTo (some out) chars = .ok (0, some longer) ∧ Owned longer ∧
      longer.data = out.data ++ chars := by
  induction chars generalizing out with
  | nil => exact ⟨out, rfl, owned, (List.append_nil _).symm⟩
  | cons c chars ih =>
      rw [List.length_cons] at short
      obtain ⟨longer, joined, owned', bytes⟩ := bconchar_eq owned c (by omega)
      have less : longer.data.length + chars.length < 2147483647 := by
        rw [bytes, List.length_append, List.length_singleton]
        omega
      obtain ⟨longest, run, owned'', bytes'⟩ := ih owned' less
      refine ⟨longest, ?_, owned'', by rw [bytes', bytes, List.append_assoc]; rfl⟩
      rw [bconcharsTo, joined, Exec.ok_bind]
      exact run

/-! ## The loops -/

/-- What the variables hold when these values of a group have been read. -/
def stepOf : List Nat → Base64Step
  | [] => .first
  | [v0] => .second (UInt8.ofNat (v0 <<< 2))
  | [v0, v1] => .third (UInt8.ofNat (v0 * 4 + v1 / 16)) (UInt8.ofNat (v1 <<< 4))
  | v0 :: v1 :: v2 :: _ =>
      .fourth (UInt8.ofNat (v0 * 4 + v1 / 16)) (UInt8.ofNat (v1 * 16 + v2 / 4))
        (UInt8.ofNat (v2 <<< 6))

/-- The run decodes some values behind the bytes there are, if the right pads follow,
and otherwise reports that the text is cut off. -/
structure Decodes (boolTruncError : Option Int) (run : Exec Decoded) (bytes : Bytes)
    (values : List Nat) (tail : Bytes) : Prop where
  whole : Padded values.length tail → ∃ out, run = .ok (some out, boolTruncError) ∧ Owned out ∧
    out.data = bytes ++ unbase64 values
  unasked : ¬ Padded values.length tail → boolTruncError = none → run = .ok (none, none)
  reported : ¬ Padded values.length tail → boolTruncError ≠ none →
    ∃ out, run = .ok (some out, some 1) ∧ Owned out ∧
      out.data = bytes ++ unbase64 (values.take (values.length / 4 * 4))

section Loop

variable {boolTruncError : Option Int} {run : Exec Decoded} {bytes tail : Bytes}
  {pending values : List Nat}

/-- A text that ends, or has a pad, too early. -/
theorem decodes_truncError {out : Bstring} (owned : Owned out) (few : pending.length < 4)
    (unpadded : ¬ Padded pending.length tail) :
    Decodes boolTruncError (.ok (truncError boolTruncError (some out) 1)) out.data pending
      tail where
  whole padded := absurd padded unpadded
  unasked _ unasked := by
    rw [unasked]
    rfl
  reported _ asked := by
    obtain ⟨old, rfl⟩ := Option.ne_none_iff_exists'.mp asked
    refine ⟨out, rfl, owned, ?_⟩
    rw [show pending.length / 4 = 0 by omega]
    simp [unbase64]

theorem decodes_padded (padded : Padded values.length tail) {out : Bstring}
    (returned : run = .ok (some out, boolTruncError)) (owned : Owned out)
    (data : out.data = bytes ++ unbase64 values) :
    Decodes boolTruncError run bytes values tail where
  whole _ := ⟨out, returned, owned, data⟩
  unasked unpadded := absurd padded unpadded
  reported unpadded := absurd padded unpadded

/-- A whole group in front of what is decoded. -/
theorem Decodes.group {v0 v1 v2 v3 : Nat}
    (decodes : Decodes boolTruncError run (bytes ++ unbase64 [v0, v1, v2, v3]) values tail) :
    Decodes boolTruncError run bytes (v0 :: v1 :: v2 :: v3 :: values) tail := by
  have padding : Padded (v0 :: v1 :: v2 :: v3 :: values).length tail ↔
      Padded values.length tail := by
    simp only [Padded, List.length_cons, Nat.add_assoc, Nat.reduceAdd, Nat.add_mod_right]
  have whole : (v0 :: v1 :: v2 :: v3 :: values).length / 4 * 4 = values.length / 4 * 4 + 4 := by
    simp only [List.length_cons]
    omega
  refine ⟨fun padded => ?_, fun unpadded => ?_, fun unpadded asked => ?_⟩
  · obtain ⟨out, returned, owned, data⟩ := decodes.whole (padding.mp padded)
    exact ⟨out, returned, owned, by rw [data, List.append_assoc]; rfl⟩
  · exact decodes.unasked (mt padding.mpr unpadded)
  · obtain ⟨out, returned, owned, data⟩ := decodes.reported (mt padding.mpr unpadded) asked
    refine ⟨out, returned, owned, ?_⟩
    rw [data, List.append_assoc, whole]
    rfl

end Loop

theorem lt_of_base64Value {c : UInt8} {value : Nat} (found : base64Value c = some value) :
    value < 64 :=
  List.mem_range.mp (List.mem_of_find?_eq_some found)

theorem base64Body_pad (rest : Bytes) : base64Body (61 :: rest) = [] := rfl

theorem base64Tail_pad (rest : Bytes) : base64Tail (61 :: rest) = 61 :: rest := rfl

theorem base64Body_cons {c : UInt8} (other : c ≠ 61) (rest : Bytes) :
    base64Body (c :: rest) = c :: base64Body rest :=
  List.takeWhile_cons_of_pos (bne_iff_ne.mpr other)

theorem base64Tail_cons {c : UInt8} (other : c ≠ 61) (rest : Bytes) :
    base64Tail (c :: rest) = base64Tail rest :=
  List.dropWhile_cons_of_pos (bne_iff_ne.mpr other)

section Pads

variable {boolTruncError : Option Int} {out : Bstring} (owned : Owned out) {pending : List Nat}
  (few : pending.length < 4)
include owned few

/-- The text ends. -/
theorem base64DecodeLoop_end :
    Decodes boolTruncError (base64DecodeLoop boolTruncError (stepOf pending) (some out) [])
      out.data pending [] := by
  rcases pending with _ | ⟨v0, _ | ⟨v1, _ | ⟨v2, _ | ⟨v3, more⟩⟩⟩⟩
  · exact decodes_padded rfl rfl owned (List.append_nil _).symm
  · exact decodes_truncError owned few (by simp [Padded])
  · exact decodes_truncError owned few (by simp [Padded])
  · exact decodes_truncError owned few (by simp [Padded])
  · simp at few
    omega

/-- The next character is a pad. -/
theorem base64DecodeLoop_pad (clear : ∀ old ∈ boolTruncError, old = 0)
    (short : out.data.length + 2 < 2147483647) (rest : Bytes) :
    Decodes boolTruncError
      (base64DecodeLoop boolTruncError (stepOf pending) (some out) (61 :: rest)) out.data pending
      (61 :: rest) := by
  rcases pending with _ | ⟨v0, _ | ⟨v1, _ | ⟨v2, _ | ⟨v3, more⟩⟩⟩⟩
  · exact decodes_truncError owned few (by simp [Padded])
  · exact decodes_truncError owned few (by simp [Padded])
  · by_cases second : rest.head? = some 61
    · obtain ⟨others, rfl⟩ := List.head?_eq_some_iff.mp second
      obtain ⟨longer, joined, owned', data⟩ := bconchar_eq owned
        (UInt8.ofNat (v0 * 4 + v1 / 16)) (by omega)
      refine decodes_padded (by simp [Padded]) ?_ owned' data
      rw [stepOf, base64DecodeLoop, if_pos rfl, base64Padded, if_neg (not_not.mpr second), joined]
      rfl
    · rw [stepOf, base64DecodeLoop, if_pos rfl, base64Padded, if_pos second]
      refine decodes_truncError owned few fun padded => second ?_
      obtain ⟨others, same⟩ : [61, 61] <+: 61 :: rest := padded
      rw [← (List.cons.inj same).2]
      rfl
  · obtain ⟨longer, joined, owned', data⟩ := @bconcharsTo_eq out owned
      [UInt8.ofNat (v0 * 4 + v1 / 16), UInt8.ofNat (v1 * 16 + v2 / 4)] short
    refine decodes_padded (by simp [Padded]) ?_ owned' data
    have same : boolTruncError.map (fun _ => (0 : Int)) = boolTruncError := by
      cases boolTruncError with
      | none => rfl
      | some old => rw [Option.map_some, clear old rfl]
    rw [stepOf, base64DecodeLoop, if_pos rfl, base64Padded, joined, same]
    rfl
  · simp at few
    omega

end Pads

section Characters

variable {boolTruncError : Option Int} {c : UInt8}

/-- What is not in the alphabet is passed over. -/
theorem base64DecodeLoop_noise (step : Base64Step) (out : Option Bstring) (rest : Bytes)
    (other : c ≠ 61) (absent : base64Value c = none) :
    base64DecodeLoop boolTruncError step out (c :: rest) =
      base64DecodeLoop boolTruncError step out rest := by
  rw [base64DecodeLoop, if_neg other]
  exact if_pos (base64DecodeSymbol_none absent)

variable {v0 v1 v2 value : Nat} (other : c ≠ 61) (found : base64Value c = some value)
include other found

/-- A character that does not complete its group. -/
theorem base64DecodeLoop_begun {pending : List Nat} (few : pending.length < 3)
    (out : Option Bstring) (rest : Bytes) :
    base64DecodeLoop boolTruncError (stepOf pending) out (c :: rest) =
      base64DecodeLoop boolTruncError (stepOf (pending ++ [value])) out rest := by
  have small := lt_of_base64Value found
  have counted : ¬ ((value : Nat) : Int) < 0 := by omega
  rcases pending with _ | ⟨v0, _ | ⟨v1, _ | ⟨v2, more⟩⟩⟩
  · rw [stepOf, base64DecodeLoop, if_neg other, base64DecodeSymbol_some found]
    exact if_neg counted
  · have shared : UInt8.ofNat (v0 <<< 2) ||| UInt8.ofNat (value >>> 4) =
        UInt8.ofNat (v0 * 4 + value / 16) := shared_byte (by omega)
    rw [stepOf, base64DecodeLoop, if_neg other, base64DecodeSymbol_some found, if_neg counted]
    dsimp only
    rw [Int.toNat_natCast, shared]
    rfl
  · have shared : UInt8.ofNat (v1 <<< 4) ||| UInt8.ofNat (value >>> 2) =
        UInt8.ofNat (v1 * 16 + value / 4) := shared_byte (by omega)
    rw [stepOf, base64DecodeLoop, if_neg other, base64DecodeSymbol_some found, if_neg counted]
    dsimp only
    rw [Int.toNat_natCast, shared]
    rfl
  · simp only [List.length_cons] at few
    omega

/-- A character that completes its group. -/
theorem base64DecodeLoop_group {out longer : Bstring} (rest : Bytes)
    (joined : bconcharsTo (some out) (unbase64 [v0, v1, v2, value]) = .ok (0, some longer)) :
    base64DecodeLoop boolTruncError (stepOf [v0, v1, v2]) (some out) (c :: rest) =
      base64DecodeLoop boolTruncError (stepOf []) (some longer) rest := by
  have small := lt_of_base64Value found
  have counted : ¬ ((value : Nat) : Int) < 0 := by omega
  have shared : UInt8.ofNat (v2 <<< 6) ||| UInt8.ofNat value = UInt8.ofNat (v2 * 64 + value) := by
    have joint := @shared_byte v2 value 6 0 (by omega)
    rwa [Nat.shiftRight_zero, pow_zero, Nat.div_one] at joint
  have full : stepOf [v0, v1, v2] = .fourth (UInt8.ofNat (v0 * 4 + v1 / 16))
      (UInt8.ofNat (v1 * 16 + v2 / 4)) (UInt8.ofNat (v2 <<< 6)) := rfl
  rw [full, base64DecodeLoop, if_neg other, base64DecodeSymbol_some found, if_neg counted]
  dsimp only
  rw [Int.toNat_natCast, shared]
  change (bconcharsTo (some out) (unbase64 [v0, v1, v2, value]) >>= _) = _
  rw [joined, Exec.ok_bind]
  rfl

end Characters

/-- The loops decode the rest of the text behind the values of a group that has begun. -/
theorem base64DecodeLoop_eq {boolTruncError : Option Int} (clear : ∀ old ∈ boolTruncError, old = 0)
    {out : Bstring} (owned : Owned out) (rest : Bytes) {pending : List Nat}
    (few : pending.length < 4)
    (short : 4 * out.data.length + 3 * (pending.length + rest.length) ≤ 3 * 2147483647) :
    Decodes boolTruncError (base64DecodeLoop boolTruncError (stepOf pending) (some out) rest)
      out.data (pending ++ symbols (base64Body rest)) (base64Tail rest) := by
  have nothing : symbols [] = [] := rfl
  induction rest generalizing out pending with
  | nil =>
      rw [show base64Body [] = [] from rfl, nothing, List.append_nil]
      exact base64DecodeLoop_end owned few
  | cons c rest ih =>
      rw [List.length_cons] at short
      by_cases pad : c = 61
      · subst pad
        rw [base64Body_pad, base64Tail_pad, nothing, List.append_nil]
        exact base64DecodeLoop_pad owned few clear (by omega) rest
      · rw [base64Body_cons pad, base64Tail_cons pad]
        cases found : base64Value c with
        | none =>
            rw [symbols, List.filterMap_cons_none found, base64DecodeLoop_noise _ _ _ pad found]
            exact ih owned few (by omega)
        | some value =>
            rw [symbols, List.filterMap_cons_some found]
            by_cases begun : pending.length < 3
            · have regrouped : pending ++ value :: (base64Body rest).filterMap base64Value =
                  (pending ++ [value]) ++ symbols (base64Body rest) := List.append_cons _ _ _
              rw [regrouped, base64DecodeLoop_begun pad found begun]
              refine ih owned ?_ ?_
              · rw [List.length_append, List.length_singleton]
                omega
              · rw [List.length_append, List.length_singleton]
                omega
            · obtain ⟨v0, v1, v2, rfl⟩ : ∃ v0 v1 v2, pending = [v0, v1, v2] :=
                List.length_eq_three.mp (by omega)
              simp only [List.length_cons, List.length_nil] at short
              obtain ⟨longer, joined, owned', data⟩ := @bconcharsTo_eq out owned
                (unbase64 [v0, v1, v2, value]) (by simp [unbase64]; omega)
              have rest' := @ih longer owned' [] (by decide)
                (by rw [data]; simp [unbase64]; omega)
              rw [base64DecodeLoop_group pad found rest joined]
              rw [data] at rest'
              exact rest'.group

/-- `bBase64DecodeEx` decodes every text that is read to its end and reports, or
refuses, every other. -/
theorem bBase64DecodeEx_eq (b : Bstring) (boolTruncError : Option Int) :
    Decodes (boolTruncError.map fun _ => 0) (bBase64DecodeEx (some b) boolTruncError) []
      (symbols (base64Body b.data)) (base64Tail b.data) := by
  obtain ⟨out, made, owned, empty⟩ := bfromcstr_empty
  have clear : ∀ old ∈ boolTruncError.map fun _ => (0 : Int), old = 0 := by
    intro old member
    obtain ⟨-, -, rfl⟩ := Option.map_eq_some_iff.mp member
    rfl
  have fits := b.fits
  have decoded := @base64DecodeLoop_eq _ clear out owned b.data [] (by decide)
    (by rw [empty]; simp; omega)
  rw [empty] at decoded
  rw [bBase64DecodeEx, made, Exec.ok_bind]
  exact decoded

/-- Exactly the texts that are read to their end are decoded without an error, to the
bytes that their characters spell.  Of any other there is a null pointer, or a report
and the bytes of the groups that were whole. -/
theorem decodes_iff_base64 (b : Bstring) (old : Int) :
    (IsBase64 b.data ↔ ∃ out, bBase64DecodeEx (some b) none = .ok (some out, none)) ∧
    (IsBase64 b.data ↔ ∃ out, bBase64DecodeEx (some b) (some old) = .ok (some out, some 0)) ∧
    (IsBase64 b.data →
      (∃ out, bBase64DecodeEx (some b) none = .ok (some out, none) ∧
        out.data = unbase64 (symbols (base64Body b.data))) ∧
      ∃ out, bBase64DecodeEx (some b) (some old) = .ok (some out, some 0) ∧
        out.data = unbase64 (symbols (base64Body b.data))) ∧
    (¬ IsBase64 b.data →
      bBase64DecodeEx (some b) none = .ok (none, none) ∧
      ∃ out, bBase64DecodeEx (some b) (some old) = .ok (some out, some 1) ∧
        out.data = unbase64 ((symbols (base64Body b.data)).take
          ((symbols (base64Body b.data)).length / 4 * 4))) := by
  have silent := bBase64DecodeEx_eq b none
  have asked := bBase64DecodeEx_eq b (some old)
  by_cases whole : IsBase64 b.data
  · obtain ⟨out, run, -, data⟩ := silent.whole whole
    obtain ⟨out', run', -, data'⟩ := asked.whole whole
    rw [List.nil_append] at data data'
    exact ⟨iff_of_true whole ⟨out, run⟩, iff_of_true whole ⟨out', run'⟩,
      fun _ => ⟨⟨out, run, data⟩, out', run', data'⟩, fun broken => absurd whole broken⟩
  · have refused := silent.unasked whole rfl
    obtain ⟨out, run, -, data⟩ := asked.reported whole (by simp)
    rw [List.nil_append] at data
    refine ⟨iff_of_false whole ?_, iff_of_false whole ?_, fun good => absurd good whole,
      fun _ => ⟨refused, out, run, data⟩⟩
    · rintro ⟨other, same⟩
      rw [refused] at same
      cases same
    · rintro ⟨other, same⟩
      rw [run] at same
      cases same

end M2Handler.Bstr

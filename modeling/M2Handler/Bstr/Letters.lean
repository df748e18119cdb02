import M2Handler.Bstr.Bstring

/-!
# Letters of either case

The conversion to upper case, and the search for a string without regard to case.
The search tries one place after the other: it finds the first place where the
lowered pattern lies in the lowered string.
-/

namespace M2Handler.Bstr

open Machine

/-! ## The functions -/

/-- `toupper` of the C locale. -/
def upcase (c : UInt8) : UInt8 := if 97 ≤ c ∧ c ≤ 122 then c - 32 else c

/-- `tolower` of the C locale. -/
def downcase (c : UInt8) : UInt8 := if 65 ≤ c ∧ c ≤ 90 then c + 32 else c

def btoupper (b : Option Bstring) : Int × Option Bstring :=
  match b with
  | none => (-1, none)
  | some b =>
      if b.mlen < b.slen ∨ b.mlen ≤ 0 then (-1, some b)
      else (0, some ⟨b.mlen, b.data.map upcase, by rw [List.length_map]; exact b.fits⟩)

/-- `for (;;)` of `binstrcaseless`, where `i` is the place that is tried and `j`
counts the bytes that agree. -/
def caselessLoop (d0 d1 : Bytes) (l ll : Int) : Nat → Int → Int → Exec Int
  | 0, _, _ => .error .divergence
  | fuel + 1, i, j => do
      let c0 ← readByte d0 j
      let c1 ← readByte d1 (i + j)
      if c0 = c1 ∨ downcase c0 = downcase c1 then
        if j + 1 ≥ ll then return i else caselessLoop d0 d1 l ll fuel i (j + 1)
      else if i + 1 ≥ l then return -1
      else caselessLoop d0 d1 l ll fuel (i + 1) 0

/-- No place is tried for longer than the pattern. -/
def binstrcaseless (b1 : Option Bstring) (pos : Int) (b2 : Option Bstring) : Exec Int :=
  match b1, b2 with
  | some b1, some b2 =>
      if b1.slen = pos then return if b2.slen = 0 then pos else -1
      else if b1.slen < pos ∨ pos < 0 then return -1
      else if b2.slen = 0 then return pos
      else
        let l := b1.slen - b2.slen + 1
        if l ≤ pos then return -1
        else caselessLoop b2.data b1.data l b2.slen (l * b2.slen).toNat pos 0
  | _, _ => return -1

/-! ## The search -/

section Search

variable (pattern text : Bytes)

/-- The first `j` bytes of the pattern lie in the text at this place. -/
def Agrees (i j : Nat) : Prop :=
  ∀ k < j, (pattern[k]?).map downcase = (text[i + k]?).map downcase

def LiesAt (i : Nat) : Prop := Agrees pattern text i pattern.length

variable {pattern text}

theorem agrees_zero (i : Nat) : Agrees pattern text i 0 := fun k below => absurd below (by omega)

theorem agrees_succ {i j : Nat} :
    Agrees pattern text i (j + 1) ↔
      Agrees pattern text i j ∧ (pattern[j]?).map downcase = (text[i + j]?).map downcase := by
  constructor
  · intro agrees
    exact ⟨fun k below => agrees k (by omega), agrees j (by omega)⟩
  · rintro ⟨agrees, last⟩ k below
    rcases Nat.lt_succ_iff_lt_or_eq.mp below with before | rfl
    · exact agrees k before
    · exact last

theorem readByte_getElem {block : Bytes} {n : Nat} (inside : n < block.length) :
    readByte block (n : Int) = .ok block[n] := by
  rw [readByte, if_neg (by omega), Int.toNat_natCast, List.getElem?_eq_getElem inside]

/-- The loop goes on to the first place from here on at which the pattern lies. -/
theorem caselessLoop_eq {l fuel i j : Nat} (inside : l + pattern.length = text.length + 1)
    (place : i < l) (count : j < pattern.length) (agrees : Agrees pattern text i j)
    (enough : (l - i) * pattern.length ≤ fuel + j) :
    ∃ answer, caselessLoop pattern text l pattern.length fuel i j = .ok answer ∧
      ((answer = -1 ∧ ∀ k, i ≤ k → k < l → ¬ LiesAt pattern text k) ∨
        ∃ found : Nat, answer = found ∧ i ≤ found ∧ found < l ∧ LiesAt pattern text found ∧
          ∀ k, i ≤ k → k < found → ¬ LiesAt pattern text k) := by
  have split : (l - i) * pattern.length = pattern.length + (l - (i + 1)) * pattern.length := by
    rw [show l - i = l - (i + 1) + 1 by omega, Nat.succ_mul, Nat.add_comm]
  induction fuel generalizing i j with
  | zero => omega
  | succ fuel ih =>
      have second : i + j < text.length := by omega
      have read : readByte text ((i : Int) + j) = .ok text[i + j] := readByte_getElem second
      rw [caselessLoop, readByte_getElem count, Exec.ok_bind, read, Exec.ok_bind]
      have same : (pattern[j] = text[i + j] ∨ downcase pattern[j] = downcase text[i + j]) ↔
          (pattern[j]?).map downcase = (text[i + j]?).map downcase := by
        rw [List.getElem?_eq_getElem count, List.getElem?_eq_getElem second, Option.map_some,
          Option.map_some, Option.some.injEq]
        exact or_iff_right_of_imp (congrArg downcase)
      by_cases agree : (pattern[j]?).map downcase = (text[i + j]?).map downcase
      · rw [if_pos (same.mpr agree)]
        have longer := agrees_succ.mpr ⟨agrees, agree⟩
        by_cases done : pattern.length ≤ j + 1
        · have all : LiesAt pattern text i := by
            rw [LiesAt, show pattern.length = j + 1 by omega]
            exact longer
          rw [if_pos (by omega)]
          exact ⟨i, rfl, .inr ⟨i, rfl, le_rfl, place, all, fun k from_ below => by omega⟩⟩
        · rw [if_neg (by omega)]
          have rest : (l - i) * pattern.length ≤ fuel + (j + 1) := by omega
          have within : j + 1 < pattern.length := by omega
          exact ih place within longer rest split
      · rw [if_neg (mt same.mp agree)]
        have fails : ¬ LiesAt pattern text i := fun lies => agree (lies j count)
        by_cases last : l ≤ i + 1
        · rw [if_pos (by omega)]
          refine ⟨-1, rfl, .inl ⟨rfl, fun k above below => ?_⟩⟩
          rw [show k = i by omega]
          exact fails
        · rw [if_neg (by omega)]
          obtain ⟨answer, ran, outcome⟩ := ih (by omega) (by omega) (agrees_zero (i + 1))
            (by omega) (by rw [show l - (i + 1) = l - (i + 1 + 1) + 1 by omega, Nat.succ_mul,
              Nat.add_comm])
          refine ⟨answer, ran, ?_⟩
          have next (k : Nat) (above : i ≤ k) : k = i ∨ i + 1 ≤ k := by omega
          rcases outcome with ⟨none, absent⟩ | ⟨found, same, after, before, lies, first⟩
          · refine .inl ⟨none, fun k above below => ?_⟩
            rcases next k above with rfl | later
            · exact fails
            · exact absent k later below
          · refine .inr ⟨found, same, by omega, before, lies, fun k above below => ?_⟩
            rcases next k above with rfl | later
            · exact fails
            · exact first k later below

/-- A place at which the pattern lies is a place of the lowered pattern. -/
theorem liesAt_iff {i : Nat} :
    LiesAt pattern text i ↔ pattern.map downcase <+: (text.map downcase).drop i := by
  rw [List.prefix_iff_getElem?, LiesAt]
  simp only [List.length_map, List.getElem?_drop, List.getElem?_map, List.getElem_map]
  refine forall_congr' fun k => forall_congr' fun below => ?_
  rw [List.getElem?_eq_getElem below, Option.map_some, eq_comm]

/-- The pattern occurs in the text in letters of any case. -/
def Occurs (pattern text : Bytes) : Prop := pattern.map downcase <:+: text.map downcase

instance (pattern text : Bytes) : Decidable (Occurs pattern text) :=
  inferInstanceAs (Decidable (pattern.map downcase <:+: text.map downcase))

theorem occurs_iff : Occurs pattern text ↔ ∃ i, LiesAt pattern text i := by
  rw [Occurs, List.infix_iff_prefix_suffix]
  constructor
  · rintro ⟨back, start, ⟨front, whole⟩⟩
    refine ⟨front.length, liesAt_iff.mpr ?_⟩
    rw [← whole, List.drop_left]
    exact start
  · rintro ⟨i, lies⟩
    exact ⟨_, liesAt_iff.mp lies, List.drop_suffix i _⟩

theorem LiesAt.le {i : Nat} (lies : LiesAt pattern text i) (nonempty : pattern ≠ []) :
    i + pattern.length ≤ text.length := by
  have length := (liesAt_iff.mp lies).length_le
  have some := List.length_pos_iff.mpr nonempty
  rw [List.length_map, List.length_drop, List.length_map] at length
  omega

end Search

/-- From the start of a string the search finds the first occurrence, if there is one. -/
theorem binstrcaseless_eq (b1 b2 : Bstring) (nonempty : b2.data ≠ []) :
    ∃ answer, binstrcaseless (some b1) 0 (some b2) = .ok answer ∧
      ((answer = -1 ∧ ¬ Occurs b2.data b1.data) ∨
        ∃ found : Nat, answer = found ∧ LiesAt b2.data b1.data found ∧
          ∀ k < found, ¬ LiesAt b2.data b1.data k) := by
  have some := List.length_pos_iff.mpr nonempty
  -- A text that is too short has no place for the pattern.
  have short (less : b1.data.length < b2.data.length) : ¬ Occurs b2.data b1.data := by
    rw [occurs_iff]
    rintro ⟨i, lies⟩
    have most := lies.le nonempty
    omega
  rw [binstrcaseless]
  unfold Bstring.slen
  split
  · rw [if_neg (by omega)]
    exact ⟨-1, rfl, .inl ⟨rfl, short (by omega)⟩⟩
  · rw [if_neg (by omega), if_neg (by omega)]
    dsimp only
    split
    · exact ⟨-1, rfl, .inl ⟨rfl, short (by omega)⟩⟩
    · obtain ⟨l, places⟩ : ∃ l : Nat, (b1.data.length : Int) - b2.data.length + 1 = l :=
        ⟨b1.data.length + 1 - b2.data.length, by omega⟩
      rw [places]
      have fuel : ((l : Int) * b2.data.length).toNat = l * b2.data.length := by
        rw [← Nat.cast_mul, Int.toNat_natCast]
      obtain ⟨answer, ran, outcome⟩ := caselessLoop_eq (by omega) (show 0 < l by omega) some
        (@agrees_zero b2.data b1.data 0) (show (l - 0) * b2.data.length ≤ l * b2.data.length + 0 by
          rw [Nat.sub_zero, Nat.add_zero])
      rw [fuel]
      refine ⟨answer, ran, ?_⟩
      rcases outcome with ⟨none, absent⟩ | ⟨found, same, -, -, lies, first⟩
      · refine .inl ⟨none, fun occurs => ?_⟩
        obtain ⟨i, lies⟩ := occurs_iff.mp occurs
        have most := lies.le nonempty
        exact absent i (Nat.zero_le i) (by omega) lies
      · exact .inr ⟨found, same, lies, fun k below => first k (Nat.zero_le k) below⟩

end M2Handler.Bstr

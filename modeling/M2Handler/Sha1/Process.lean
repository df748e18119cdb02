import M2Handler.Hash.Sha1
import M2Handler.Sha1.Context

/-!
# The block function

The low halves of the variables of `sha1_process` are the working variables of the
standard.  The array of 16 words is a window on the schedule that moves on with the
rounds, and every line is a round.
-/

namespace M2Handler.Sha1

open Machine Hash

/-! ## Low halves -/

theorem mask_eq (x : UInt64) : x &&& 0xFFFFFFFF = x.toUInt32.toUInt64 := by
  apply UInt64.toNat_inj.mp
  rw [UInt64.toNat_and, UInt32.toNat_toUInt64, UInt64.toNat_toUInt32]
  exact Nat.and_two_pow_sub_one_eq_mod _ 32

/-- `S` rotates the low half. -/
theorem toUInt32_S (x : UInt64) {n : UInt64} (positive : 0 < n) (small : n < 32) :
    (S x n).toUInt32 = rotl n.toUInt32 x.toUInt32 := by
  have right : (x.toUInt32 >>> (32 - n.toUInt32)).toUInt64 = x.toUInt32.toUInt64 >>> (32 - n) := by
    have positiveNat : 0 < n.toNat := UInt64.lt_iff_toNat_lt.mp positive
    have smallNat : n.toNat < 32 := UInt64.lt_iff_toNat_lt.mp small
    have count : n.toUInt32.toNat = n.toNat := by
      rw [UInt64.toNat_toUInt32]
      omega
    have shift : (32 - n).toNat = 32 - n.toNat :=
      UInt64.toNat_sub_of_le _ _ (UInt64.le_iff_toNat_le.mpr smallNat.le)
    have shiftLow : (32 - n.toUInt32).toNat = 32 - n.toNat := by
      rw [← count]
      exact UInt32.toNat_sub_of_le _ _ (UInt32.le_iff_toNat_le.mpr (by rw [count]; exact smallNat.le))
    have same : (32 - n.toUInt32).toUInt64 % 32 = 32 - n := by
      apply UInt64.toNat_inj.mp
      rw [UInt64.toNat_mod, UInt32.toNat_toUInt64, shiftLow, shift]
      exact Nat.mod_eq_of_lt (by show 32 - n.toNat < 32; omega)
    rw [UInt32.toUInt64_shiftRight, same]
  rw [S, mask_eq, ← right, UInt64.toUInt32_or, UInt64.toUInt32_shiftLeft _ _ small,
    UInt32.toUInt32_toUInt64, rotl]

theorem choice_eq (x y z : UInt32) : z ^^^ (x &&& (y ^^^ z)) = (x &&& y) ||| (~~~x &&& z) := by
  apply UInt32.toBitVec_inj.mp
  ext i small
  simp only [UInt32.toBitVec_xor, UInt32.toBitVec_and, UInt32.toBitVec_or, UInt32.toBitVec_not,
    BitVec.getElem_xor, BitVec.getElem_and, BitVec.getElem_or, BitVec.getElem_not]
  cases x.toBitVec[i] <;> cases y.toBitVec[i] <;> cases z.toBitVec[i] <;> rfl

theorem majority_eq (x y z : UInt32) :
    (x &&& y) ||| (z &&& (x ||| y)) = (x &&& y) ||| (x &&& z) ||| (y &&& z) := by
  apply UInt32.toBitVec_inj.mp
  ext i small
  simp only [UInt32.toBitVec_and, UInt32.toBitVec_or, BitVec.getElem_and, BitVec.getElem_or]
  cases x.toBitVec[i] <;> cases y.toBitVec[i] <;> cases z.toBitVec[i] <;> rfl

theorem toUInt32_F0 (x y z : UInt64) :
    (F0 x y z).toUInt32 = (x.toUInt32 &&& y.toUInt32) ||| (~~~x.toUInt32 &&& z.toUInt32) := by
  rw [← choice_eq, F0, UInt64.toUInt32_xor, UInt64.toUInt32_and, UInt64.toUInt32_xor]

theorem toUInt32_F1 (x y z : UInt64) :
    (F1 x y z).toUInt32 = x.toUInt32 ^^^ y.toUInt32 ^^^ z.toUInt32 := by
  rw [F1, UInt64.toUInt32_xor, UInt64.toUInt32_xor]

theorem toUInt32_F2 (x y z : UInt64) :
    (F2 x y z).toUInt32 = (x.toUInt32 &&& y.toUInt32) ||| (x.toUInt32 &&& z.toUInt32) |||
      (y.toUInt32 &&& z.toUInt32) := by
  rw [← majority_eq, F2, UInt64.toUInt32_or, UInt64.toUInt32_and, UInt64.toUInt32_and,
    UInt64.toUInt32_or]

/-! ## Bytes -/

theorem or_eq_add (a : Nat) {b i : Nat} (small : b < 2 ^ i) : a <<< i ||| b = a * 2 ^ i + b := by
  rw [← Nat.shiftLeft_add_eq_or_of_lt small, Nat.shiftLeft_eq]

/-- `GET_ULONG_BE` reads a word in network order. -/
theorem getUlongBe_cons (b0 b1 b2 b3 : UInt8) (rest : Bytes) :
    (getUlongBe (b0 :: b1 :: b2 :: b3 :: rest) 0).toUInt32 =
      UInt32.ofNat (networkValue [b0, b1, b2, b3]) := by
  have b0_lt : b0.toNat < 256 := b0.toNat_lt
  have b1_lt : b1.toNat < 256 := b1.toNat_lt
  have b2_lt : b2.toNat < 256 := b2.toNat_lt
  have b3_lt : b3.toNat < 256 := b3.toNat_lt
  have first : b0.toNat <<< 24 ||| b1.toNat <<< 16 = (b0.toNat * 256 + b1.toNat) <<< 16 := by
    rw [or_eq_add _ (by rw [Nat.shiftLeft_eq]; omega), Nat.shiftLeft_eq, Nat.shiftLeft_eq]
    omega
  have second : (b0.toNat * 256 + b1.toNat) <<< 16 ||| b2.toNat <<< 8 =
      (b0.toNat * 65536 + b1.toNat * 256 + b2.toNat) <<< 8 := by
    rw [or_eq_add _ (by rw [Nat.shiftLeft_eq]; omega), Nat.shiftLeft_eq, Nat.shiftLeft_eq]
    omega
  have third : (b0.toNat * 65536 + b1.toNat * 256 + b2.toNat) <<< 8 ||| b3.toNat =
      networkValue [b0, b1, b2, b3] := by
    rw [or_eq_add _ b3_lt]
    simp only [networkValue, littleValue, List.reverse_cons, List.reverse_nil, List.nil_append,
      List.cons_append]
    omega
  have shifted (b : UInt8) (n : UInt64) (few : n.toNat ≤ 24) :
      (b.toUInt64 <<< n).toNat = b.toNat <<< n.toNat := by
    have b_lt : b.toNat < 256 := b.toNat_lt
    have fits : b.toNat <<< n.toNat < 2 ^ 64 := by
      rw [Nat.shiftLeft_eq]
      calc b.toNat * 2 ^ n.toNat ≤ 256 * 2 ^ 24 :=
            Nat.mul_le_mul b_lt.le (Nat.pow_le_pow_right (by decide) few)
        _ < 2 ^ 64 := by decide
    rw [UInt64.toNat_shiftLeft, UInt8.toNat_toUInt64, Nat.mod_eq_of_lt (show n.toNat < 64 by omega),
      Nat.mod_eq_of_lt fits]
  have whole : (getUlongBe (b0 :: b1 :: b2 :: b3 :: rest) 0).toNat =
      networkValue [b0, b1, b2, b3] := by
    simp only [getUlongBe, List.getD_cons_zero, List.getD_cons_succ, UInt64.toNat_or,
      UInt8.toNat_toUInt64]
    rw [shifted b0 24 (by decide), shifted b1 16 (by decide), shifted b2 8 (by decide)]
    exact ((congrArg (fun front => (front ||| b2.toNat <<< 8) ||| b3.toNat) first).trans
      (congrArg (· ||| b3.toNat) second)).trans third
  apply UInt32.toNat_inj.mp
  rw [UInt64.toNat_toUInt32, whole, UInt32.toNat_ofNat']

/-- The words of a block. -/
theorem getUlongBe_eq {count : Nat} {text : Bytes} (full : 4 * count ≤ text.length) {i : Nat}
    (i_lt : i < count) :
    (getUlongBe text (4 * i)).toUInt32 = (wordsOf count text).getD i 0 := by
  induction count generalizing text i with
  | zero => exact absurd i_lt (Nat.not_lt_zero _)
  | succ count ih =>
      rcases text with _ | ⟨b0, _ | ⟨b1, _ | ⟨b2, _ | ⟨b3, rest⟩⟩⟩⟩
      iterate 4 exact absurd full (by simp only [List.length_cons, List.length_nil]; omega)
      simp only [List.length_cons] at full
      cases i with
      | zero => exact getUlongBe_cons b0 b1 b2 b3 rest
      | succ i => exact ih (by omega) (Nat.lt_of_succ_lt_succ i_lt)

/-- `PUT_ULONG_BE` writes the low half in network order. -/
theorem putUlongBe_eq (n : UInt64) : putUlongBe n = networkBytes 4 n.toUInt32.toNat := by
  have written (k : UInt64) (few : k.toNat < 64) (value : Nat)
      (same : n.toNat / 2 ^ k.toNat % 256 = value % 256) :
      (n >>> k).toUInt8 = UInt8.ofNat value := by
    apply UInt8.toNat_inj.mp
    rw [UInt64.toNat_toUInt8, UInt64.toNat_shiftRight, Nat.mod_eq_of_lt few,
      Nat.shiftRight_eq_div_pow, UInt8.toNat_ofNat', ← same]
  have last : n.toUInt8 = UInt8.ofNat n.toUInt32.toNat := by
    apply UInt8.toNat_inj.mp
    rw [UInt64.toNat_toUInt8, UInt8.toNat_ofNat', UInt64.toNat_toUInt32]
    omega
  have low := UInt64.toNat_toUInt32 n
  rw [putUlongBe, written 24 (by decide) (n.toUInt32.toNat / 256 / 256 / 256) (by
      show n.toNat / 2 ^ 24 % 256 = _; omega),
    written 16 (by decide) (n.toUInt32.toNat / 256 / 256) (by
      show n.toNat / 2 ^ 16 % 256 = _; omega),
    written 8 (by decide) (n.toUInt32.toNat / 256) (by
      show n.toNat / 2 ^ 8 % 256 = _; omega), last]
  rfl

/-! ## The window on the schedule -/

/-- Before line `t` the array holds the 16 words before word `t`, and those of the
block before the first lines. -/
structure Window (words : List UInt32) (t : Nat) (W : List UInt64) : Prop where
  size : W.length = 16
  holds : ∀ j, j < max t 16 → t ≤ j + 16 → (W.getD (j % 16) 0).toUInt32 = words.getD j 0

section Lines

variable {words : List UInt32} (block : words.length = 16) {t : Nat} {W : List UInt64}

include block

/-- A line reads its word and moves the window on. -/
theorem word_eq (window : Window (schedule words 64) t W) (t_lt : t < 80) :
    (word W t).1.toUInt32 = (schedule words 64).getD t 0 ∧
      Window (schedule words 64) (t + 1) (word W t).2 := by
  by_cases first : t < 16
  · rw [word, if_pos first]
    have read := window.holds t (by omega) (by omega)
    rw [Nat.mod_eq_of_lt first] at read
    exact ⟨read, window.size, fun j j_lt near => window.holds j (by omega) (by omega)⟩
  · obtain ⟨early, rfl⟩ : ∃ early, t = early + 16 := ⟨t - 16, by omega⟩
    have here (j : Nat) (near : j < early + 16 ∧ early ≤ j) := window.holds j (by omega) (by omega)
    have next : (word W (early + 16)).1.toUInt32 = (schedule words 64).getD (early + 16) 0 := by
      have wrapped : early % 16 = (early + 16) % 16 := by omega
      have here0 := here early ⟨by omega, by omega⟩
      rw [wrapped] at here0
      rw [word, if_neg first, R, toUInt32_S _ (by decide) (by decide),
        getD_schedule_later block (by omega), UInt64.toUInt32_xor, UInt64.toUInt32_xor,
        UInt64.toUInt32_xor, Nat.add_sub_assoc (by decide), Nat.add_sub_assoc (by decide),
        Nat.add_sub_assoc (by decide), here (early + 13) ⟨by omega, by omega⟩,
        here (early + 8) ⟨by omega, by omega⟩, here (early + 2) ⟨by omega, by omega⟩, here0]
      rfl
    refine ⟨next, ?_, fun j j_lt near => ?_⟩
    · rw [word, if_neg first, R, List.length_set, window.size]
    · rw [word, if_neg first, R] at next ⊢
      by_cases last : j = early + 16
      · rw [last, ← next, List.getD_eq_getElem?_getD, List.getElem?_set_self (by
          rw [window.size]; omega)]
        rfl
      · rw [List.getD_eq_getElem?_getD, List.getElem?_set_ne (by omega),
          ← List.getD_eq_getElem?_getD]
        exact here j ⟨by omega, by omega⟩

end Lines

/-! ## Rounds -/

def Registers.low (registers : Registers) : Chaining where
  a := registers.A.toUInt32
  b := registers.B.toUInt32
  c := registers.C.toUInt32
  d := registers.D.toUInt32
  e := registers.E.toUInt32

/-- `F` and `K` are those of round `t`. -/
structure Rounding (F : UInt64 → UInt64 → UInt64 → UInt64) (K : UInt64) (t : Nat) : Prop where
  function : ∀ x y z, (F x y z).toUInt32 = roundFunction t x.toUInt32 y.toUInt32 z.toUInt32
  constant : K.toUInt32 = roundConstant t

/-- Before line `t` the variables have gone through `t` rounds. -/
structure Working (words : List UInt32) (start : Chaining) (t : Nat)
    (working : Registers × List UInt64) : Prop where
  registers : working.1.low = rounds (schedule words 64) start t
  window : Window (schedule words 64) t working.2

section Rounds

variable {F : UInt64 → UInt64 → UInt64 → UInt64} {K : UInt64} {words : List UInt32} {t : Nat}
  {start : Chaining}

/-- A line is a round, whose results come at other places. -/
theorem P_eq (rounding : Rounding F K t) {a b c d e x : UInt64}
    (before : Registers.low ⟨a, b, c, d, e⟩ = rounds (schedule words 64) start t)
    (read : x.toUInt32 = (schedule words 64).getD t 0) :
    Registers.low ⟨(P F K a b c d e x).2, a, (P F K a b c d e x).1, c, d⟩ =
      rounds (schedule words 64) start (t + 1) := by
  have sum : ((P F K a b c d e x).2).toUInt32 =
      rotl 5 a.toUInt32 + roundFunction t b.toUInt32 c.toUInt32 d.toUInt32 + e.toUInt32 +
        x.toUInt32 + roundConstant t := by
    rw [P, UInt64.toUInt32_add, UInt64.toUInt32_add, UInt64.toUInt32_add, UInt64.toUInt32_add,
      toUInt32_S _ (by decide) (by decide), rounding.function, rounding.constant]
    ac_rfl
  have turned : ((P F K a b c d e x).1).toUInt32 = rotl 30 b.toUInt32 := by
    rw [P, toUInt32_S _ (by decide) (by decide)]
    rfl
  rw [rounds, ← before, ← read, Hash.round, Registers.low, sum, turned]
  rfl

variable (block : words.length = 16)
include block

/-- The results of a line are the variables after its round. -/
theorem line_eq (rounding : Rounding F K t) (t_lt : t < 80) {a b c d e : UInt64}
    {W : List UInt64} (before : Registers.low ⟨a, b, c, d, e⟩ = rounds (schedule words 64) start t)
    (window : Window (schedule words 64) t W) :
    ∃ x W' b' e', word W t = (x, W') ∧ P F K a b c d e x = (b', e') ∧
      Registers.low ⟨e', a, b', c, d⟩ = rounds (schedule words 64) start (t + 1) ∧
        Window (schedule words 64) (t + 1) W' := by
  obtain ⟨read, moved⟩ := word_eq block window t_lt
  exact ⟨_, _, _, _, rfl, rfl, P_eq rounding before read, moved⟩

theorem lines_eq (rounding : ∀ i < 5, Rounding F K (t + i)) (t_le : t + 5 ≤ 80)
    {working : Registers × List UInt64} (before : Working words start t working) :
    Working words start (t + 5) (lines F K t working) := by
  obtain ⟨⟨A, B, C, D, E⟩, W⟩ := working
  obtain ⟨registers, window⟩ := before
  dsimp only at registers window
  obtain ⟨x0, W0, B, E, read0, line0, registers, window⟩ :=
    line_eq block (rounding 0 (by decide)) (by omega) registers window
  obtain ⟨x1, W1, A, D, read1, line1, registers, window⟩ :=
    line_eq block (rounding 1 (by decide)) (by omega) registers window
  obtain ⟨x2, W2, E, C, read2, line2, registers, window⟩ :=
    line_eq block (rounding 2 (by decide)) (by omega) registers window
  obtain ⟨x3, W3, D, B, read3, line3, registers, window⟩ :=
    line_eq block (rounding 3 (by decide)) (by omega) registers window
  obtain ⟨x4, W4, C, A, read4, line4, registers, window⟩ :=
    line_eq block (rounding 4 (by decide)) (by omega) registers window
  rw [Nat.add_zero] at read0
  simp only [lines, read0, line0, read1, line1, read2, line2, read3, line3, read4, line4]
  exact ⟨registers, window⟩

theorem stage_eq (rounding : ∀ i < 20, Rounding F K (t + i)) (t_le : t + 20 ≤ 80)
    {working : Registers × List UInt64} (before : Working words start t working) :
    Working words start (t + 20) (stage F K t working) := by
  have part (k : Nat) (k_le : k + 5 ≤ 20) :
      ∀ {working}, Working words start (t + k) working →
        Working words start (t + k + 5) (lines F K (t + k) working) := by
    intro working before
    refine lines_eq block (fun i i_lt => ?_) (by omega) before
    rw [Nat.add_assoc]
    exact rounding (k + i) (by omega)
  exact part 15 (by decide) (part 10 (by decide) (part 5 (by decide) (part 0 (by decide) before)))

end Rounds

/-! ## The block -/

theorem rounding_F0 : ∀ i < 20, Rounding F0 0x5A827999 (0 + i) := by
  intro i i_lt
  refine ⟨fun x y z => ?_, ?_⟩
  · rw [toUInt32_F0, roundFunction, if_pos (by omega)]
  · rw [roundConstant, if_pos (by omega)]
    rfl

theorem rounding_F1 : ∀ i < 20, Rounding F1 0x6ED9EBA1 (20 + i) := by
  intro i i_lt
  refine ⟨fun x y z => ?_, ?_⟩
  · rw [toUInt32_F1, roundFunction, if_neg (by omega), if_pos (by omega)]
  · rw [roundConstant, if_neg (by omega), if_pos (by omega)]
    rfl

theorem rounding_F2 : ∀ i < 20, Rounding F2 0x8F1BBCDC (40 + i) := by
  intro i i_lt
  refine ⟨fun x y z => ?_, ?_⟩
  · rw [toUInt32_F2, roundFunction, if_neg (by omega), if_neg (by omega), if_pos (by omega)]
  · rw [roundConstant, if_neg (by omega), if_neg (by omega), if_pos (by omega)]
    rfl

theorem rounding_last : ∀ i < 20, Rounding F1 0xCA62C1D6 (60 + i) := by
  intro i i_lt
  refine ⟨fun x y z => ?_, ?_⟩
  · rw [toUInt32_F1, roundFunction, if_neg (by omega), if_neg (by omega), if_neg (by omega)]
  · rw [roundConstant, if_neg (by omega), if_neg (by omega), if_neg (by omega)]
    rfl

/-- The variables before the first line. -/
theorem working_zero (registers : Registers) {data : Bytes} (full : 64 ≤ data.length) :
    Working (wordsOf 16 data) registers.low 0
      (registers, (List.range 16).map fun i => getUlongBe data (4 * i)) := by
  refine ⟨rfl, ?_, fun j j_lt near => ?_⟩
  · rw [List.length_map, List.length_range]
  · have small : j < 16 := by omega
    rw [Nat.mod_eq_of_lt small, getD_schedule_block (length_wordsOf 16 data) _ small,
      ← getUlongBe_eq (by omega) small, List.getD_eq_getElem?_getD, List.getElem?_map,
      List.getElem?_range small]
    rfl

/-- `sha1_process` compresses a block into the low halves of the state. -/
theorem sha1Process_eq (ctx : Sha1Context) {data : Bytes} (full : 64 ≤ data.length) :
    ∃ state, sha1Process ctx data = { ctx with state } ∧
      state.low = compress ctx.state.low data := by
  have block := length_wordsOf 16 data
  have working := working_zero ctx.state full
  have working := stage_eq block rounding_F0 (by decide) working
  have working := stage_eq block rounding_F1 (by decide) working
  have working := stage_eq block rounding_F2 (by decide) working
  have working := stage_eq block rounding_last (by decide) working
  unfold sha1Process
  dsimp only
  generalize stage F1 0xCA62C1D6 60 _ = last at working ⊢
  refine ⟨_, rfl, ?_⟩
  rw [compress, ← working.registers]
  simp only [Registers.low, UInt64.toUInt32_add]

end M2Handler.Sha1

import M2Handler.Bstr.Base64
import M2Handler.Websocket.Handshake

/-!
# Base64 both ways

`bBase64Encode` breaks the line after every 57 bytes and returns the null pointer when
the text would not fit an `int`.  Otherwise `bBase64DecodeEx` reads the bytes back.
-/

namespace M2Handler.Websocket

open Machine Text Bstr

/-! ## The text with line breaks -/

def lineBreak (i : Nat) : Bytes := if i ≠ 0 ∧ i % 57 = 0 then [13, 10] else []

/-- The Base64 text of some bytes from an index on, with line breaks. -/
def base64From (i : Nat) : Bytes → Bytes
  | b0 :: b1 :: b2 :: rest =>
      lineBreak i ++ (base64Text (sextets (groupOf b0 b1 b2)) ++ base64From (i + 3) rest)
  | [b0, b1] => lineBreak i ++ base64 [b0, b1]
  | [b0] => lineBreak i ++ base64 [b0]
  | [] => lineBreak i ++ []

theorem spells_break {data text : Bytes} (spells : Spells data text) (i : Nat) :
    Spells data (lineBreak i ++ text) := by
  unfold lineBreak
  split
  · exact spells.skip (by decide) (by decide)
  · exact spells

/-- The line breaks do not change what the text spells. -/
theorem spells_base64From (i : Nat) (data : Bytes) : Spells data (base64From i data) := by
  induction data using base64.induct generalizing i with
  | case1 b0 b1 b2 rest ih =>
      have group := (ih (i + 3)).group (pad_notMem_base64Text _)
        (symbols_base64Text fun _ => @lt_of_mem_sextets b0 b1 b2 _)
      exact spells_break group i
  | case2 b0 b1 => exact spells_break (spells_base64 [b0, b1]) i
  | case3 b0 => exact spells_break (spells_base64 [b0]) i
  | case4 => exact spells_break spells_nil i

/-- A line break is counted when its index is reached. -/
theorem length_lineBreak {i length : Nat} (aligned : i % 3 = 0) (short : length < 3) :
    (lineBreak i).length = 2 * ((i + length) / 57 - (i - 1) / 57) := by
  unfold lineBreak
  split
  · simp
    omega
  · simp
    omega

/-- Four characters for every three bytes begun, and two for every line of 57 bytes. -/
theorem length_base64From {i : Nat} (aligned : i % 3 = 0) (data : Bytes) :
    (base64From i data).length =
      4 * ((data.length + 2) / 3) + 2 * ((i + data.length) / 57 - (i - 1) / 57) := by
  induction data using base64.induct generalizing i with
  | case1 b0 b1 b2 rest ih =>
      have here := @length_lineBreak i 0 aligned (by decide)
      have later := @ih (i + 3) (by omega)
      rw [base64From, List.length_append, List.length_append, here, later]
      simp [base64Text, sextets]
      omega
  | case2 b0 b1 =>
      have here := @length_lineBreak i 2 aligned (by decide)
      rw [base64From, List.length_append, here, length_base64]
      simp
      omega
  | case3 b0 =>
      have here := @length_lineBreak i 1 aligned (by decide)
      rw [base64From, List.length_append, here, length_base64]
      simp
      omega
  | case4 =>
      have here := @length_lineBreak i 0 aligned (by decide)
      rw [base64From, List.length_append, here]
      simp

/-! ## The encoder -/

/-- The run appends the text, or returns the null pointer if the result would not fit. -/
def Appends (run : Exec (Option Bstring)) (bytes text : Bytes) : Prop :=
  if bytes.length + text.length < 2147483647 then Makes run (bytes ++ text) else run = .ok none

theorem appends_nil {out : Bstring} (owned : Owned out) : Appends (.ok (some out)) out.data [] := by
  obtain ⟨room, small⟩ := owned
  rw [Appends, List.length_nil, if_pos (by omega), List.append_nil]
  exact ⟨out, rfl, ⟨room, small⟩, rfl⟩

/-- One part of the text behind another. -/
theorem Appends.bind {run : Exec (Option Bstring)} {next : Option Bstring → Exec (Option Bstring)}
    {bytes first second : Bytes} (appends : Appends run bytes first)
    (rest : ∀ out, Owned out → out.data = bytes ++ first →
      Appends (next (some out)) (bytes ++ first) second)
    (failed : next none = .ok none) : Appends (run >>= next) bytes (first ++ second) := by
  unfold Appends at appends
  by_cases fits : bytes.length + first.length < 2147483647
  · rw [if_pos fits] at appends
    obtain ⟨out, returned, owned, data⟩ := appends
    have further := rest out owned data
    rw [Appends, List.append_assoc, List.length_append, Nat.add_assoc, ← List.length_append]
      at further
    rw [Appends, returned, Exec.ok_bind]
    exact further
  · rw [if_neg fits] at appends
    rw [Appends, List.length_append, if_neg (by omega), appends, Exec.ok_bind, failed]

/-- The longest string takes no other character. -/
theorem bconchar_full {b : Bstring} (owned : Owned b) (full : 2147483646 ≤ b.data.length)
    (c : UInt8) : bconchar (some b) c = .ok (-1, some b) := by
  obtain ⟨room, small⟩ := owned
  have length : (b.data.length : Int) = 2147483646 := by omega
  have block : b.mlen = 2147483647 := by omega
  have wrapped : balloc b (toInt (b.slen + 2)) = (-1, b) := by
    rw [Bstring.slen, length]
    exact balloc_refuses (by decide)
  have accepted : ¬ (b.slen < 0 ∨ toInt (b.mlen - b.slen) < 0) := by
    rw [Bstring.slen, length, block]
    decide
  rw [bconchar, if_neg accepted, wrapped]
  rfl

theorem bconchars_appends {out : Bstring} (owned : Owned out) (chars : Bytes) :
    Appends (bconchars (some out) chars) out.data chars := by
  by_cases fits : out.data.length + chars.length < 2147483647
  · rw [Appends, if_pos fits]
    exact bconchars_eq owned fits
  · rw [Appends, if_neg fits]
    induction chars generalizing out with
    | nil =>
        obtain ⟨room, small⟩ := owned
        rw [List.length_nil] at fits
        omega
    | cons c chars ih =>
        rw [List.length_cons] at fits
        by_cases full : 2147483646 ≤ out.data.length
        · rw [bconchars, bconchar_full owned full, Exec.ok_bind]
          rfl
        · obtain ⟨longer, joined, owned', data⟩ := bconchar_eq owned c (by omega)
          rw [bconchars, joined, Exec.ok_bind]
          refine ih owned' ?_
          rw [data, List.length_append, List.length_singleton]
          omega

theorem bBase64Break_appends {out : Bstring} (owned : Owned out) (i : Nat) :
    Appends (bBase64Break (some out) i) out.data (lineBreak i) := by
  unfold bBase64Break lineBreak
  split
  · exact bconchars_appends owned [13, 10]
  · exact appends_nil owned

/-! ### A string that is lost already -/

theorem bconchars_none {chars : Bytes} : bconchars none chars = .ok none := by
  cases chars <;> rfl

theorem bBase64Break_none (i : Nat) : bBase64Break none i = .ok none := by
  unfold bBase64Break
  split <;> rfl

theorem bBase64Loop_none (i : Nat) (data : Bytes) : bBase64Loop none i data = .ok none := by
  induction data using base64.induct generalizing i with
  | case1 b0 b1 b2 rest ih =>
      rw [bBase64Loop, bBase64Break_none, Exec.ok_bind]
      dsimp only
      rw [bconchars_none, Exec.ok_bind]
      exact ih (i + 3)
  | case2 b0 b1 => rw [bBase64Loop, bBase64Break_none, Exec.ok_bind]; exact bconchars_none
  | case3 b0 => rw [bBase64Loop, bBase64Break_none, Exec.ok_bind]; exact bconchars_none
  | case4 => rw [bBase64Loop, bBase64Break_none]

theorem bBase64Loop_appends {out : Bstring} (owned : Owned out) (i : Nat) (data : Bytes) :
    Appends (bBase64Loop (some out) i data) out.data (base64From i data) := by
  induction data using base64.induct generalizing out i with
  | case1 b0 b1 b2 rest ih =>
      rw [bBase64Loop, base64From]
      refine (bBase64Break_appends owned i).bind (fun broken owned' data' => ?_) ?_
      · dsimp only
        rw [looked_up, ← data']
        refine (bconchars_appends owned' _).bind (fun longer owned'' data'' => ?_) ?_
        · rw [← data'']
          exact ih owned'' (i + 3)
        · exact bBase64Loop_none _ _
      · dsimp only
        rw [bconchars_none, Exec.ok_bind, bBase64Loop_none]
  | case2 b0 b1 =>
      rw [bBase64Loop, base64From]
      refine (bBase64Break_appends owned i).bind (fun broken owned' data' => ?_) bconchars_none
      dsimp only
      rw [looked_up_two, ← data']
      exact bconchars_appends owned' _
  | case3 b0 =>
      rw [bBase64Loop, base64From]
      refine (bBase64Break_appends owned i).bind (fun broken owned' data' => ?_) bconchars_none
      dsimp only
      rw [looked_up_one, ← data']
      exact bconchars_appends owned' _
  | case4 =>
      rw [bBase64Loop, base64From, List.append_nil]
      exact bBase64Break_appends owned i

/-- The encoder makes the text if it fits, and no string if it does not. -/
theorem bBase64Encode_total (b : Bstring) :
    if (base64From 0 b.data).length < 2147483647
      then Makes (bBase64Encode (some b)) (base64From 0 b.data)
      else bBase64Encode (some b) = .ok none := by
  obtain ⟨out, made, owned, empty⟩ := bfromcstr_empty
  have appends := bBase64Loop_appends owned 0 b.data
  rw [empty, Appends, List.nil_append, List.length_nil, Nat.zero_add] at appends
  rw [bBase64Encode, made, Exec.ok_bind]
  exact appends

/-! ## The round trip -/

def base64Size (count : Nat) : Nat := 4 * ((count + 2) / 3) + 2 * (count / 57)

/-- What `bBase64Encode` makes of any bytes `bBase64DecodeEx` decodes to the same bytes
without an error; it makes nothing of bytes whose text would not fit. -/
theorem base64_roundTrip (b : Bstring) (boolTruncError : Option Int) :
    if base64Size b.data.length < 2147483647 then
      ∃ text decoded, bBase64Encode (some b) = .ok (some text) ∧
        text.data.length = base64Size b.data.length ∧
        bBase64DecodeEx (some text) boolTruncError =
          .ok (some decoded, boolTruncError.map fun _ => 0) ∧ decoded.data = b.data
    else bBase64Encode (some b) = .ok none := by
  have total := bBase64Encode_total b
  have size : (base64From 0 b.data).length = base64Size b.data.length := by
    rw [length_base64From (by decide), base64Size, Nat.zero_add]
    rfl
  rw [size] at total
  by_cases fits : base64Size b.data.length < 2147483647
  · rw [if_pos fits] at total ⊢
    obtain ⟨text, encoded, -, chars⟩ := total
    obtain ⟨whole, bytes⟩ := spells_base64From 0 b.data
    rw [← chars] at whole bytes
    obtain ⟨decoded, run, -, data⟩ := (bBase64DecodeEx_eq text boolTruncError).whole whole
    refine ⟨text, decoded, encoded, by rw [chars, size], run, ?_⟩
    rw [data, List.nil_append, bytes]
  · rw [if_neg fits] at total ⊢
    exact total

end M2Handler.Websocket

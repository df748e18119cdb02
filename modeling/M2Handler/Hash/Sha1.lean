import M2Handler.Hash.Iterated
import M2Handler.Machine.ByteOrder
import Mathlib.Data.List.GetD

/-!
# SHA-1

The hash function of FIPS 180-1 and the keyed hash HMAC over it.  A block is
expanded to a schedule of 80 words, and each of 80 rounds mixes one of them into
five working variables.
-/

namespace M2Handler.Hash

open Machine

/-! ## Words -/

/-- A circular left shift, for a count between 1 and 31. -/
def rotl (count x : UInt32) : UInt32 := (x <<< count) ||| (x >>> (32 - count))

def wordsOf : Nat → Bytes → List UInt32
  | 0, _ => []
  | count + 1, text => UInt32.ofNat (networkValue (text.take 4)) :: wordsOf count (text.drop 4)

structure Chaining where
  a : UInt32
  b : UInt32
  c : UInt32
  d : UInt32
  e : UInt32
  deriving DecidableEq

def Chaining.start : Chaining where
  a := 0x67452301
  b := 0xEFCDAB89
  c := 0x98BADCFE
  d := 0x10325476
  e := 0xC3D2E1F0

def Chaining.bytes (chaining : Chaining) : Bytes :=
  networkBytes 4 chaining.a.toNat ++ networkBytes 4 chaining.b.toNat ++
    networkBytes 4 chaining.c.toNat ++ networkBytes 4 chaining.d.toNat ++
      networkBytes 4 chaining.e.toNat

/-! ## The compression function -/

/-- The next word of a schedule whose last 16 words come first in the list. -/
def nextWord (window : List UInt32) : UInt32 :=
  rotl 1 (window.getD 13 0 ^^^ window.getD 8 0 ^^^ window.getD 2 0 ^^^ window.getD 0 0)

/-- The schedule of 80 words: its first 16 are those of the block. -/
def schedule (words : List UInt32) : Nat → List UInt32
  | 0 => words
  | count + 1 =>
      let earlier := schedule words count
      earlier ++ [nextWord (earlier.drop count)]

theorem length_wordsOf (count : Nat) (text : Bytes) : (wordsOf count text).length = count := by
  induction count generalizing text with
  | zero => rfl
  | succ count ih => rw [wordsOf, List.length_cons, ih]

section Schedule

variable {words : List UInt32} (block : words.length = 16)
include block

theorem length_schedule (count : Nat) : (schedule words count).length = count + 16 := by
  induction count with
  | zero => rw [schedule, block]
  | succ count ih => rw [schedule, List.length_append, ih, List.length_singleton, Nat.add_right_comm]

/-- A word does not change when the schedule grows. -/
theorem getD_schedule {t count more : Nat} (early : t < count + 16) (grown : count ≤ more) :
    (schedule words more).getD t 0 = (schedule words count).getD t 0 := by
  induction more, grown using Nat.le_induction with
  | base => rfl
  | succ more grown ih =>
      have inside : t < (schedule words more).length := by
        rw [length_schedule block]
        omega
      rw [schedule, List.getD_append _ _ _ _ inside, ih]

/-- The words of the block come first. -/
theorem getD_schedule_block {t : Nat} (count : Nat) (first : t < 16) :
    (schedule words count).getD t 0 = words.getD t 0 :=
  getD_schedule block (show t < 0 + 16 by omega) (Nat.zero_le _)

/-- The words behind the block follow from four earlier ones. -/
theorem getD_schedule_later {count : Nat} {t : Nat} (first : t < count) :
    (schedule words count).getD (t + 16) 0 =
      rotl 1 ((schedule words count).getD (t + 13) 0 ^^^ (schedule words count).getD (t + 8) 0 ^^^
        (schedule words count).getD (t + 2) 0 ^^^ (schedule words count).getD t 0) := by
  have last : (schedule words (t + 1)).getD (t + 16) 0 =
      nextWord ((schedule words t).drop t) := by
    rw [schedule, List.getD_append_right _ _ _ _ (by rw [length_schedule block]),
      length_schedule block, Nat.sub_self]
    rfl
  have dropped (i : Nat) (i_lt : i < 16) :
      ((schedule words t).drop t).getD i 0 = (schedule words count).getD (t + i) 0 := by
    rw [getD_schedule block (show t + i < t + 16 by omega) (by omega), List.getD_eq_getElem?_getD,
      List.getElem?_drop, ← List.getD_eq_getElem?_getD]
  rw [getD_schedule block (show t + 16 < t + 1 + 16 by omega) (by omega), last, nextWord,
    dropped 13 (by omega), dropped 8 (by omega), dropped 2 (by omega), dropped 0 (by omega)]
  rfl

end Schedule

/-- The round functions: choice, parity, majority and parity, 20 rounds each. -/
def roundFunction (t : Nat) (b c d : UInt32) : UInt32 :=
  if t < 20 then (b &&& c) ||| (~~~b &&& d)
  else if t < 40 then b ^^^ c ^^^ d
  else if t < 60 then (b &&& c) ||| (b &&& d) ||| (c &&& d)
  else b ^^^ c ^^^ d

def roundConstant (t : Nat) : UInt32 :=
  if t < 20 then 0x5A827999
  else if t < 40 then 0x6ED9EBA1
  else if t < 60 then 0x8F1BBCDC
  else 0xCA62C1D6

def round (t : Nat) (word : UInt32) (v : Chaining) : Chaining where
  a := rotl 5 v.a + roundFunction t v.b v.c v.d + v.e + word + roundConstant t
  b := v.a
  c := rotl 30 v.b
  d := v.c
  e := v.d

def rounds (words : List UInt32) (v : Chaining) : Nat → Chaining
  | 0 => v
  | t + 1 => round t (words.getD t 0) (rounds words v t)

def compress (chaining : Chaining) (block : Bytes) : Chaining :=
  let v := rounds (schedule (wordsOf 16 block) 64) chaining 80
  { a := chaining.a + v.a
    b := chaining.b + v.b
    c := chaining.c + v.c
    d := chaining.d + v.d
    e := chaining.e + v.e }

/-! ## Padding -/

def zeros (length : Nat) : Nat := (119 - length % 64) % 64

/-- The marker, the zeros and the length in bits behind a message of this length. -/
def padding (length : Nat) : Bytes :=
  0x80 :: List.replicate (zeros length) 0 ++ networkBytes 8 (8 * length)

def sha1 (message : Bytes) : Bytes :=
  (absorb 64 compress .start (message ++ padding message.length)).1.bytes

theorem length_bytes (chaining : Chaining) : chaining.bytes.length = 20 := by
  simp [Chaining.bytes]

theorem length_sha1 (message : Bytes) : (sha1 message).length = 20 := length_bytes _

/-- The digest of `abc`. -/
example : sha1 [97, 98, 99] = [0xA9, 0x99, 0x3E, 0x36, 0x47, 0x06, 0x81, 0x6A, 0xBA, 0x3E,
    0x25, 0x71, 0x78, 0x50, 0xC2, 0x6C, 0x9C, 0xD0, 0xD8, 0x9D] := by
  decide +kernel

/-! ## Keyed hashing -/

/-- A key that is longer than a block is hashed; every key is filled up with zeros. -/
def blockKey (key : Bytes) : Bytes :=
  let key := if 64 < key.length then sha1 key else key
  key ++ List.replicate (64 - key.length) 0

def hmac (key message : Bytes) : Bytes :=
  sha1 ((blockKey key).map (0x5C ^^^ ·) ++ sha1 ((blockKey key).map (0x36 ^^^ ·) ++ message))

theorem length_blockKey (key : Bytes) : (blockKey key).length = 64 := by
  unfold blockKey
  by_cases long : 64 < key.length
  · simp [long, length_sha1]
  · simp [long]
    omega

end M2Handler.Hash

import M2Handler.Machine.Block

/-!
# The functions of `sha1.c`

An `unsigned long` has 64 bits, of which the algorithm uses the low 32; the
others hold what is carried out of a sum or shifted out of a word.  The macros
for the rounds are functions that return the variables they assign.
-/

namespace M2Handler.Sha1

open Machine

/-! ## Macros -/

def getUlongBe (b : Bytes) (i : Nat) : UInt64 :=
  ((b.getD i 0).toUInt64 <<< 24) ||| ((b.getD (i + 1) 0).toUInt64 <<< 16) |||
    ((b.getD (i + 2) 0).toUInt64 <<< 8) ||| (b.getD (i + 3) 0).toUInt64

def putUlongBe (n : UInt64) : Bytes :=
  [(n >>> 24).toUInt8, (n >>> 16).toUInt8, (n >>> 8).toUInt8, n.toUInt8]

def S (x n : UInt64) : UInt64 := (x <<< n) ||| ((x &&& 0xFFFFFFFF) >>> (32 - n))

/-- `R`: the word, and the array that holds it. -/
def R (W : List UInt64) (t : Nat) : UInt64 × List UInt64 :=
  let temp := W.getD ((t - 3) % 16) 0 ^^^ W.getD ((t - 8) % 16) 0 ^^^
    W.getD ((t - 14) % 16) 0 ^^^ W.getD (t % 16) 0
  (S temp 1, W.set (t % 16) (S temp 1))

/-- The word of line `t`: `W[t]` on the first 16 lines and `R(t)` behind them. -/
def word (W : List UInt64) (t : Nat) : UInt64 × List UInt64 :=
  if t < 16 then (W.getD t 0, W) else R W t

/-- `P`: the new values of `b` and `e`. -/
def P (F : UInt64 → UInt64 → UInt64 → UInt64) (K a b c d e x : UInt64) : UInt64 × UInt64 :=
  (S b 30, e + (S a 5 + F b c d + K + x))

/-! ## The block function -/

structure Registers where
  A : UInt64
  B : UInt64
  C : UInt64
  D : UInt64
  E : UInt64

/-- Five lines from line `t`, each with the variables moved on by one. -/
def lines (F : UInt64 → UInt64 → UInt64 → UInt64) (K : UInt64) (t : Nat) :
    Registers × List UInt64 → Registers × List UInt64
  | (⟨A, B, C, D, E⟩, W) =>
      let (x, W) := word W t
      let (B, E) := P F K A B C D E x
      let (x, W) := word W (t + 1)
      let (A, D) := P F K E A B C D x
      let (x, W) := word W (t + 2)
      let (E, C) := P F K D E A B C x
      let (x, W) := word W (t + 3)
      let (D, B) := P F K C D E A B x
      let (x, W) := word W (t + 4)
      let (C, A) := P F K B C D E A x
      (⟨A, B, C, D, E⟩, W)

def stage (F : UInt64 → UInt64 → UInt64 → UInt64) (K : UInt64) (t : Nat)
    (working : Registers × List UInt64) : Registers × List UInt64 :=
  lines F K (t + 15) (lines F K (t + 10) (lines F K (t + 5) (lines F K t working)))

def F0 (x y z : UInt64) : UInt64 := z ^^^ (x &&& (y ^^^ z))

def F1 (x y z : UInt64) : UInt64 := x ^^^ y ^^^ z

def F2 (x y z : UInt64) : UInt64 := (x &&& y) ||| (z &&& (x ||| y))

structure Sha1Context where
  total0 : UInt64
  total1 : UInt64
  state : Registers
  buffer : Bytes
  ipad : Bytes
  opad : Bytes

def sha1Process (ctx : Sha1Context) (data : Bytes) : Sha1Context :=
  let W := (List.range 16).map fun i => getUlongBe data (4 * i)
  let working := stage F0 0x5A827999 0 (ctx.state, W)
  let working := stage F1 0x6ED9EBA1 20 working
  let working := stage F2 0x8F1BBCDC 40 working
  let (v, _) := stage F1 0xCA62C1D6 60 working
  { ctx with
    state :=
      { A := ctx.state.A + v.A
        B := ctx.state.B + v.B
        C := ctx.state.C + v.C
        D := ctx.state.D + v.D
        E := ctx.state.E + v.E } }

/-! ## Hashing -/

def sha1Starts (ctx : Sha1Context) : Sha1Context :=
  { ctx with
    total0 := 0
    total1 := 0
    state := ⟨0x67452301, 0xEFCDAB89, 0x98BADCFE, 0x10325476, 0xC3D2E1F0⟩ }

/-- `while (ilen >= 64)`, from an index of the input. -/
def updateLoop (input : Bytes) : Nat → Sha1Context → (place ilen : Nat) →
    Exec (Sha1Context × Nat × Nat)
  | 0, _, _, _ => .error .divergence
  | fuel + 1, ctx, place, ilen => do
      if 64 ≤ ilen then
        let data ← readBlock input place 64
        updateLoop input fuel (sha1Process ctx data) (place + 64) (ilen - 64)
      else return (ctx, place, ilen)

def sha1Update (ctx : Sha1Context) (input : Bytes) (ilen : Nat) : Exec Sha1Context := do
  if ilen = 0 then return ctx
  else
    let left := (ctx.total0 &&& 0x3F).toNat
    let fill := 64 - left
    let total0 := (ctx.total0 + UInt64.ofNat ilen) &&& 0xFFFFFFFF
    let total1 := if total0 < UInt64.ofNat ilen then ctx.total1 + 1 else ctx.total1
    let ctx := { ctx with total0, total1 }
    let (ctx, left, place, ilen) ←
      if left ≠ 0 ∧ fill ≤ ilen then do
        let bytes ← readBlock input 0 fill
        let buffer ← writeBlock ctx.buffer left bytes
        pure (sha1Process { ctx with buffer } buffer, 0, fill, ilen - fill)
      else pure (ctx, left, 0, ilen)
    let (ctx, place, ilen) ← updateLoop input (ilen / 64 + 1) ctx place ilen
    if 0 < ilen then
      let bytes ← readBlock input place ilen
      let buffer ← writeBlock ctx.buffer left bytes
      return { ctx with buffer }
    else return ctx

def sha1Padding : Bytes := 0x80 :: List.replicate 63 0

/-- The digest and the context that is left. -/
def sha1Finish (ctx : Sha1Context) : Exec (Bytes × Sha1Context) := do
  let high := (ctx.total0 >>> 29) ||| (ctx.total1 <<< 3)
  let low := ctx.total0 <<< 3
  let msglen := putUlongBe high ++ putUlongBe low
  let last := ctx.total0 &&& 0x3F
  let padn := if last < 56 then 56 - last else 120 - last
  let ctx ← sha1Update ctx sha1Padding padn.toNat
  let ctx ← sha1Update ctx msglen 8
  return (putUlongBe ctx.state.A ++ putUlongBe ctx.state.B ++ putUlongBe ctx.state.C ++
    putUlongBe ctx.state.D ++ putUlongBe ctx.state.E, ctx)

/-- The context on the stack starts with what was there before. -/
def sha1 (stack : Sha1Context) (input : Bytes) (ilen : Nat) : Exec Bytes := do
  let ctx := sha1Starts stack
  let ctx ← sha1Update ctx input ilen
  let (output, _) ← sha1Finish ctx
  return output

/-! ## Keyed hashing -/

/-- `for (i = 0; i < keylen; i++)` over the inner and the outer pad. -/
def padLoop (key : Bytes) : (count i : Nat) → Bytes → Bytes → Exec (Bytes × Bytes)
  | 0, _, ipad, opad => .ok (ipad, opad)
  | count + 1, i, ipad, opad => do
      let keyByte ← readByte key i
      let byte ← readByte ipad i
      let ipad ← writeByte ipad i (byte ^^^ keyByte)
      let byte ← readByte opad i
      let opad ← writeByte opad i (byte ^^^ keyByte)
      padLoop key count (i + 1) ipad opad

def sha1HmacStarts (stack ctx : Sha1Context) (key : Bytes) (keylen : Nat) :
    Exec Sha1Context := do
  let (key, keylen) ←
    if 64 < keylen then do
      let sum ← sha1 stack key keylen
      pure (sum, 20)
    else pure (key, keylen)
  let (ipad, opad) ← padLoop key keylen 0 (List.replicate 64 0x36) (List.replicate 64 0x5C)
  let ctx := sha1Starts { ctx with ipad, opad }
  sha1Update ctx ctx.ipad 64

def sha1HmacUpdate (ctx : Sha1Context) (input : Bytes) (ilen : Nat) : Exec Sha1Context :=
  sha1Update ctx input ilen

def sha1HmacFinish (ctx : Sha1Context) : Exec (Bytes × Sha1Context) := do
  let (tmpbuf, ctx) ← sha1Finish ctx
  let ctx := sha1Starts ctx
  let ctx ← sha1Update ctx ctx.opad 64
  let ctx ← sha1Update ctx tmpbuf 20
  sha1Finish ctx

def sha1HmacReset (ctx : Sha1Context) : Exec Sha1Context := do
  let ctx := sha1Starts ctx
  sha1Update ctx ctx.ipad 64

/-- The two contexts are those of this function and of the hash of a long key. -/
def sha1Hmac (inner stack : Sha1Context) (key : Bytes) (keylen : Nat) (input : Bytes)
    (ilen : Nat) : Exec Bytes := do
  let ctx ← sha1HmacStarts inner stack key keylen
  let ctx ← sha1HmacUpdate ctx input ilen
  let (output, _) ← sha1HmacFinish ctx
  return output

end M2Handler.Sha1

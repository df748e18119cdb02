import M2Handler.Machine.Block
import M2Handler.Text.Decimal

/-!
# Counted strings

The part of bstrlib that the library uses.  A `bstring` is `none` when the
pointer is null; otherwise it holds the counted bytes and the size `mlen` of
their block, which is negative for a write-protected string.  A string that is
read as a `char *` ends at its first NUL or at its own end.  Allocation
succeeds, and the arithmetic of bstrlib on `int` wraps, as its overflow checks
expect.
-/

namespace M2Handler.Bstr

open Machine Text

structure Bstring where
  mlen : Int
  data : Bytes
  fits : data.length ≤ 2147483647
  deriving DecidableEq

def Bstring.slen (b : Bstring) : Int := b.data.length

def bsStatic (data : Bytes) (fits : data.length ≤ 2147483647) : Bstring := ⟨-1, data, fits⟩

def blength : Option Bstring → Int
  | none => 0
  | some b => b.slen

def bdata : Option Bstring → Option Bytes
  | none => none
  | some b => some b.data

/-! ## Allocation -/

/-- Least power of two greater than `j`. -/
def leastPower (j : UInt32) : UInt32 :=
  let j := j ||| (j >>> 1)
  let j := j ||| (j >>> 2)
  let j := j ||| (j >>> 4)
  let j := j ||| (j >>> 8)
  let j := j ||| (j >>> 16)
  j + 1

def snapUpSize (i : Int) : Int :=
  if i < 8 then 8
  else
    let j := leastPower (UInt32.ofNat i.toNat)
    if toInt j.toNat ≥ i then toInt j.toNat else i

/-- A string whose bytes, and a NUL after them, were written into a block of
`mlen` bytes. -/
def stored (mlen : Int) (data : Bytes) : Exec Bstring :=
  if room : (data.length : Int) < mlen ∧ mlen ≤ 2147483647 then
    .ok ⟨mlen, data, by omega⟩
  else .error .outOfBounds

/-- The C result, then the string, whose block may have grown. -/
def balloc (b : Bstring) (olen : Int) : Int × Bstring :=
  if b.mlen ≤ 0 ∨ b.mlen < b.slen ∨ olen ≤ 0 then (-1, b)
  else if olen ≥ b.mlen then
    let len := snapUpSize olen
    if len ≤ b.mlen then (0, b) else (0, { b with mlen := len })
  else (0, b)

/-! ## Construction -/

def blockSize (j : Int) : Int := snapUpSize (toInt (j + (2 - if j ≠ 0 then 1 else 0)))

/-- `str` is the C string without its NUL. -/
def bfromcstr : Option Bytes → Exec (Option Bstring)
  | none => return none
  | some str => do
      let j := str.length
      let i := blockSize j
      if i ≤ toInt j then return none
      else
        let b ← stored i str
        return some b

def bfromcstralloc (mlen : Int) : Option Bytes → Exec (Option Bstring)
  | none => return none
  | some str => do
      let j := str.length
      let i := blockSize j
      if i ≤ toInt j then return none
      else
        let i := if i < mlen then mlen else i
        let b ← stored i str
        return some b

def blk2bstr (blk : Option Bytes) (len : Int) : Exec (Option Bstring) :=
  match blk with
  | none => return none
  | some block => do
      if len < 0 then return none
      else
        let bytes ← readBlock block 0 len.toNat
        let b ← stored (blockSize len) bytes
        return some b

def bstrcpy : Option Bstring → Exec (Option Bstring)
  | none => return none
  | some b => do
      let i := b.slen
      let j := snapUpSize (toInt (i + 1))
      let b0 ← stored j b.data
      return some b0

def bmidstr (trapv : Bool) (b : Option Bstring) (left len : Int) : Exec (Option Bstring) :=
  match b with
  | none => return none
  | some b => do
      let (left, len) ←
        if left < 0 then do
          let len ← arith trapv (len + left)
          pure (0, len)
        else pure (left, len)
      let rest ← arith trapv (b.slen - left)
      let len := if len > rest then rest else len
      if len ≤ 0 then bfromcstr (some [])
      else blk2bstr (some (b.data.drop left.toNat)) len

/-! ## Searching -/

def searchFrom (b : Bstring) (pos : Int) (test : UInt8 → Bool) : Int :=
  match (b.data.drop pos.toNat).findIdx? test with
  | some index => pos + index
  | none => -1

def bstrchrp (b : Option Bstring) (c : UInt8) (pos : Int) : Int :=
  match b with
  | none => -1
  | some b => if b.slen ≤ pos ∨ pos < 0 then -1 else searchFrom b pos (· = c)

def binchr (b0 : Option Bstring) (pos : Int) (b1 : Bstring) : Int :=
  match b0 with
  | none => -1
  | some b =>
      if pos < 0 ∨ b.slen ≤ pos then -1
      else
        match b1.data with
        | [] => -1
        | [c] => bstrchrp b0 c pos
        | _ => searchFrom b pos (· ∈ b1.data)

/-! ## Comparison -/

def shrtMin : Int := -32768

/-- The loop of `bstrcmp` and the comparison of the lengths after it.  A `char`
is signed, and a NUL that both strings have at one place ends the comparison. -/
def bstrcmpLoop : Bytes → Bytes → Int
  | c0 :: rest0, c1 :: rest1 =>
      let v := c0.toInt8.toInt - c1.toInt8.toInt
      if v ≠ 0 then v
      else if c0 = 0 then 0
      else bstrcmpLoop rest0 rest1
  | _ :: _, [] => 1
  | [], _ :: _ => -1
  | [], [] => 0

/-- For two empty strings, or one block given twice, the loop finds the zero of
the shortcut too. -/
def bstrcmp (b0 b1 : Option Bstring) : Int :=
  match b0, b1 with
  | some b0, some b1 => bstrcmpLoop b0.data b1.data
  | _, _ => shrtMin

/-! ## Appending -/

def bconcat (b0 b1 : Option Bstring) : Exec (Int × Option Bstring) :=
  match b0, b1 with
  | some b0, some b1 => do
      let d := b0.slen
      let len := b1.slen
      if d < 0 ∨ toInt (b0.mlen - d) < 0 ∨ len < 0 ∨ toInt (d + len) < 0 then
        return (-1, some b0)
      else
        let (status, b0) :=
          if b0.mlen ≤ toInt (d + len + 1) then balloc b0 (toInt (d + len + 1)) else (0, b0)
        if status ≠ 0 then return (-1, some b0)
        else
          let b0 ← stored b0.mlen (b0.data ++ b1.data)
          return (0, some b0)
  | b0, _ => return (-1, b0)

def bconchar (b : Option Bstring) (c : UInt8) : Exec (Int × Option Bstring) :=
  match b with
  | none => return (-1, none)
  | some b => do
      let d := b.slen
      if d < 0 ∨ toInt (b.mlen - d) < 0 then return (-1, some b)
      else
        let (status, b) := balloc b (toInt (d + 2))
        if status ≠ 0 then return (-1, some b)
        else
          let b ← stored b.mlen (b.data ++ [c])
          return (0, some b)

/-- `s` holds the `len` bytes to append. -/
def bcatblk (b : Option Bstring) (s : Bytes) (len : Int) : Exec (Int × Option Bstring) :=
  match b with
  | none => return (-1, none)
  | some b => do
      if b.mlen < b.slen ∨ b.mlen ≤ 0 ∨ len < 0 then return (-1, some b)
      else
        let nl := toInt (b.slen + len)
        if nl < 0 then return (-1, some b)
        else
          let (status, b) := if b.mlen ≤ nl then balloc b (toInt (nl + 1)) else (0, b)
          if status < 0 then return (-1, some b)
          else
            let bytes ← readBlock s 0 len.toNat
            let b ← stored b.mlen (b.data ++ bytes)
            return (0, some b)

/-- `s` is the C string without its NUL. -/
def bcatcstr (b : Option Bstring) (s : Option Bytes) : Exec (Int × Option Bstring) :=
  match b, s with
  | some b, some s => do
      if b.mlen < b.slen ∨ b.mlen ≤ 0 then return (-1, some b)
      else
        let l := (b.mlen - b.slen).toNat
        -- The loop copies the NUL too when it finds it among the first `l` bytes.
        if s.length < l then
          let b ← stored b.mlen (b.data ++ s)
          return (0, some b)
        else if filled : (b.data ++ s.take l).length ≤ 2147483647 then
          bcatblk (some ⟨b.mlen, b.data ++ s.take l, filled⟩) (s.drop l)
            (toInt (s.drop l).length)
        else throw .outOfBounds
  | b, _ => return (-1, b)

/-! ## Formatting -/

/-- The loop of `bformat`, for arguments that format to `output`.  `vsnprintf`
stores as much of the output as fits and returns its full length, or `-1` when
that is not an `int`. -/
def bformatLoop (output : Bytes) : Nat → Int → Bstring → Exec (Option Bstring)
  | 0, _, _ => .error .divergence
  | fuel + 1, n, buff => do
      let r : Int := if (output.length : Int) ≤ intMax then output.length else -1
      if ¬ n < buff.mlen then throw .outOfBounds
      else
        let buff ← stored buff.mlen (cString (output.take n.toNat))
        if buff.slen < n then return some buff
        else
          let n := if r > n then r else toInt (n + n)
          let (status, buff) := balloc buff (toInt (n + 2))
          if status ≠ 0 then return none
          else bformatLoop output fuel n buff

def startVsnbuff : Int := 16

/-- `fmt` is the format and `output` what its conversions produce from the
arguments. -/
def bformat (fmt output : Bytes) : Exec (Option Bstring) := do
  let n : Int := toInt (2 * fmt.length)
  let n := if n < startVsnbuff then startVsnbuff else n
  let buff ← bfromcstralloc (toInt (n + 2)) (some [])
  match buff with
  | none => return none
  | some buff => bformatLoop output 64 n buff

end M2Handler.Bstr

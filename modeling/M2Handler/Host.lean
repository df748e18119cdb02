import M2Handler.Machine.ByteOrder

/-!
# The build and the machine

What the same source text leaves open: whether the build defines `NDEBUG`, the
byte order of the machine, what the compiler does with a signed overflow, what
`sscanf` stores for a number outside the type it scans into, and whether
`calloc` provides a frame buffer of a given size.  Every other allocation is
taken to succeed.
-/

namespace M2Handler

open Machine

structure Host where
  /-- `NDEBUG` is defined, as in the default configuration. -/
  ndebug : Bool
  endian : Endian
  /-- A signed overflow of the request parser traps; otherwise it wraps. -/
  trapv : Bool
  /-- What `sscanf("%d")` stores for a number that no `int` represents. -/
  scanOverflow : Int → Int32
  /-- Whether `calloc` provides this many bytes for a frame. -/
  frameMemory : Nat → Bool

/-- The default configuration on 64-bit Linux: `sscanf` reads a `long`, which
saturates, and keeps its low 32 bits. -/
def linuxHost : Host where
  ndebug := true
  endian := .little
  trapv := false
  scanOverflow := fun number =>
    Int32.ofInt (max (-9223372036854775808) (min number 9223372036854775807))
  frameMemory := fun _ => true

end M2Handler

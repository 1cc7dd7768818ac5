/-!
# Binary floating point as exact data

A `Double` is the 64-bit word of an IEEE 754 binary64 value. Programs do not
compute with it here, their constants are read, kept and written. So the type
keeps the word and gives it its meaning in integers. A finite double is
`± significand · 2 ^ exponent`, and two doubles are the same constant exactly
when their words agree, which tells `-0.0` from `0.0` and one NaN from another.
-/

namespace ClosedWorld

/-- A binary64 value, as its word. -/
structure Double where
  bits : UInt64
  deriving DecidableEq, Inhabited

namespace Double

/-- The sign bit. -/
def signBit : Nat := Nat.pow 2 63

/-- The number of doubles in a binade, from one power of two up to the next. -/
def binade : Nat := Nat.pow 2 52

/-- The magnitude of infinity: the least word above every finite magnitude. -/
def infinity : Nat := 2047 * binade

/-- The double with the given sign and magnitude word. -/
def ofMagnitude (negative : Bool) (magnitude : Nat) : Double :=
  ⟨((if negative then signBit else 0) + magnitude).toUInt64⟩

/-- Positive zero. -/
def zero : Double := ofMagnitude false 0

/-- The sign bit is set. -/
def isNegative (x : Double) : Bool := signBit ≤ x.bits.toNat

/-- The word without its sign; it orders the doubles of one sign. -/
def magnitude (x : Double) : Nat := x.bits.toNat % signBit

/-- The double is a number. -/
def isFinite (x : Double) : Bool := x.magnitude < infinity

/-- The double is neither a number nor an infinity. -/
def isNaN (x : Double) : Bool := infinity < x.magnitude

/-- The least exponent; zero and the subnormal doubles have it. -/
def minExponent : Int := -1074

/-- The integer that a finite magnitude word scales. -/
def significandOf (magnitude : Nat) : Nat :=
  if magnitude < binade then magnitude else magnitude % binade + binade

/-- The power of two that scales it. -/
def exponentOf (magnitude : Nat) : Int :=
  if magnitude < binade then minExponent else (magnitude / binade : Nat) + (minExponent - 1)

/-- A finite magnitude as a quotient of integers. -/
def ratio (magnitude : Nat) : Nat × Nat :=
  let e := exponentOf magnitude
  (significandOf magnitude * Nat.pow 2 e.toNat, Nat.pow 2 (-e).toNat)

end Double

end ClosedWorld

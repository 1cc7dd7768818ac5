import ClosedWorld.Double.Basic

/-!
# Rounding to the nearest double

A decimal number is `m · 10 ^ e`, an exact rational. `Double.nearest` rounds a
rational that is not negative to the magnitude word of the closest double, a tie
going to the even word, by one integer division: it scales the quotient so that
it has the 53 bits of a significand, or fewer at the least exponent, and rounds
that.

The words of consecutive doubles are consecutive numbers, so a quotient that
rounds up to `2 ^ 53` needs no second look: the carry runs into the exponent
field and gives the word of the next power of two. A result at or above
`infinity` means that the decimal lies beyond the largest finite double.
-/

namespace ClosedWorld.Double

/-- The quotient `num / den` rounded to an integer, a half going to the even
neighbour. -/
def roundHalfEven (num den : Nat) : Nat :=
  let whole := num / den
  let twice := 2 * (num % den)
  if twice < den ∨ (twice = den ∧ whole % 2 = 0) then whole else whole + 1

/-- `num / den` divided by `2 ^ q`, as a numerator and a denominator. -/
def scaled (num den : Nat) (q : Int) : Nat × Nat :=
  (num * Nat.pow 2 (-q).toNat, den * Nat.pow 2 q.toNat)

/-- The exponent at which `num / den` has a significand below `2 ^ 53`. The
logarithms place the quotient within a factor of two, so one test decides. -/
def binaryExponent (num den : Nat) : Int :=
  let low := max minExponent ((num.log2 : Int) - den.log2 - 53)
  let (n, d) := scaled num den low
  if n < 2 * binade * d then low else low + 1

/-- The magnitude word nearest to the rational `num / den`. -/
def nearest (num den : Nat) : Nat :=
  if num = 0 then 0
  else
    let q := binaryExponent num den
    let (n, d) := scaled num den q
    (q - minExponent).toNat * binade + roundHalfEven n d

/-- The double nearest to `± m · 10 ^ e`; none when it is beyond the finite
ones. Exponents far out of range are settled without the power of ten. -/
def ofScientific (negative : Bool) (m : Nat) (e : Int) : Option Double :=
  if m = 0 then some (ofMagnitude negative 0)
  else if 400 < e then none
  else if e < -(m.log2 + 400 : Int) then some (ofMagnitude negative 0)
  else
    let word := nearest (m * Nat.pow 10 e.toNat) (Nat.pow 10 (-e).toNat)
    if word < infinity then some (ofMagnitude negative word) else none

end ClosedWorld.Double

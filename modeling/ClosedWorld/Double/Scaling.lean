import ClosedWorld.Double.Rounding

/-!
# Scaling a double by a power of ten

Floating point arithmetic as far as scaling needs it: the product and the
quotient of two magnitudes, each the exact result rounded to nearest once.

A power of ten is itself a double, the nearest one, so scaling rounds up to
three times: the number, the power and the result. Up to `10 ^ 22` the power is
exact. A number that is scaled up is multiplied once, one that is scaled down is
divided once, or twice where a single power would be too large for a double.
-/

namespace ClosedWorld.Double

/-- The product of two finite magnitudes, rounded. -/
def product (a b : Nat) : Nat :=
  let (n, d) := ratio a
  let (n', d') := ratio b
  nearest (n * n') (d * d')

/-- The quotient of two finite magnitudes, rounded. -/
def quotient (a b : Nat) : Nat :=
  let (n, d) := ratio a
  let (n', d') := ratio b
  nearest (n * d') (d * n')

/-- The greatest power of ten among the doubles. -/
def maxTen : Nat := 308

/-- The magnitude of a power of ten. -/
def ten (k : Nat) : Nat := nearest (Nat.pow 10 k) 1

/-- A finite magnitude times `10 ^ k`; none when the product, or already the
power, is beyond the finite doubles. Zero stays zero under any power. -/
def scaleUp (a k : Nat) : Option Nat :=
  if a = 0 then some 0
  else if maxTen < k then none
  else
    let word := product a (ten k)
    if word < infinity then some word else none

/-- The magnitude of an integer of 64 bits over `10 ^ k`. A power beyond the
doubles is taken in two steps, and below both of them every such integer has
become zero. -/
def scaleDown (a k : Nat) : Nat :=
  if k ≤ maxTen then quotient a (ten k)
  else if k ≤ 2 * maxTen then quotient (quotient a (ten maxTen)) (ten (k - maxTen))
  else 0

/-- The magnitude of an integer of 64 bits times `10 ^ e`. -/
def scale (a : Nat) (e : Int) : Option Nat :=
  if 0 ≤ e then scaleUp a e.toNat else some (scaleDown a (-e).toNat)

end ClosedWorld.Double

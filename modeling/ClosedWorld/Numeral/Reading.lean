import ClosedWorld.Double.Scaling
import ClosedWorld.Numeral

/-!
# Reading a numeral in data as a double

A decoder reads a number in one pass with a word of 64 bits. The digits fill the
word from the left, the point left out, for as long as they fit, and the rest
only counts for its place: a digit of the whole part that is dropped is worth a
power of ten, a digit after the point is worth nothing. The word is rounded to a
double, and the double is scaled by the power of ten that is left.

Each step rounds, so the result can differ from `Numeral.nearest?` in its last
bits, and a double need not survive being written and read:
`262298768842.91202` is the shortest text of the double nearest to it, and is
read as the double below that one. A numeral whose digits spell at most `2 ^ 53`,
with a scale from -22 to 22, is read as its nearest double, because there nothing
is rounded but the result.
-/

namespace ClosedWorld.Numeral

/-- Appends digits to a number for as long as it fits 64 bits. What comes back
is the number, and the digits from the first that did not fit. -/
def fill : Nat → List Digit → Nat × List Digit
  | n, [] => (n, [])
  | n, d :: ds =>
      if 10 * n + d.val < UInt64.size then fill (10 * n + d.val) ds else (n, d :: ds)

/-- The integer that the leading digits of a numeral spell, and the power of ten
that scales it. -/
def leading (n : Numeral) : Nat × Int :=
  let (m, dropped) := fill 0 (Digit.ofNat n.whole)
  let (m, ignored) := fill m n.frac
  (m, n.scale + dropped.length + ignored.length)

/-- The double that a numeral in data is read as; none when it overflows. -/
def toDouble? (n : Numeral) : Option Double :=
  let (m, e) := n.leading
  (Double.scale (Double.nearest m 1) e).map (Double.ofMagnitude n.negative)

end ClosedWorld.Numeral

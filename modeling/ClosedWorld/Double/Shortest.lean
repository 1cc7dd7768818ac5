import ClosedWorld.Numeral

/-!
# Writing a double with the fewest digits

A finite double is written with the least number of significant digits, from
one to seventeen, at which one of the two decimals around it has that double as
its nearest; of the two the nearer is taken. The search asks the exact reading
itself: a numeral is a candidate only if `Numeral.nearest?` returns the double,
so what is found has that property for no other reason than that it was found.
Where nothing is found the exact value is spelled out in full, which keeps the
function total without a bound on the search being part of its meaning.

How a numeral in data is decoded is another matter (`Numeral.toDouble?`): that
reading takes several roundings, and can miss the nearest double by a unit.

`Style` holds what two formats may decide differently: which powers of ten are
written positionally and which neighbour an exact tie goes to.
-/

namespace ClosedWorld.Double

/-- How a format writes a double. -/
structure Style where
  /-- The least power of ten whose leading digit is written positionally. -/
  plainFrom : Int
  /-- The least power of ten above that which takes an exponent. -/
  plainBelow : Int
  /-- A double halfway between two decimals goes to the one above `lower`. -/
  tieUp : (lower : Nat) → Bool

/-- The power of ten just above the quotient, so that its first significant
digit is the first one after the point. -/
def decimalPoint (num den : Nat) : Int :=
  let a := (Nat.toDigits 10 num).length
  let b := (Nat.toDigits 10 den).length
  if den * Nat.pow 10 a ≤ num * Nat.pow 10 b then (a : Int) - b + 1 else (a : Int) - b

/-- Drops the zeros at the end of a list of digits. -/
def trimZeros (ds : List Digit) : List Digit := (ds.reverse.dropWhile (· == 0)).reverse

/-- The digits after a point are never none. -/
def fraction (ds : List Digit) : List Digit := if ds = [] then [0] else ds

/-- The numeral of `± k · 10 ^ s` in the given style. -/
def Style.layout (style : Style) (negative : Bool) (k : Nat) (s : Int) : Numeral :=
  let ds := Digit.ofNat k
  let point := (ds.length : Int) + s
  let ds := trimZeros ds
  if style.plainFrom ≤ point - 1 ∧ point - 1 < style.plainBelow then
    let ds := List.replicate (-point).toNat 0 ++ ds ++ List.replicate (point - ds.length).toNat 0
    { negative
      whole := Digit.toNat 0 (ds.take point.toNat)
      frac := fraction (ds.drop point.toNat) }
  else
    { negative
      whole := Digit.toNat 0 (ds.take 1)
      frac := ds.drop 1
      exponent := some (point - 1) }

/-- The two decimals of `places` significant digits around a magnitude, the
preferred one first. -/
def Style.neighbours (style : Style) (magnitude : Nat) (places : Nat) : List (Nat × Int) :=
  let (num, den) := ratio magnitude
  let s := decimalPoint num den - places
  let num := num * Nat.pow 10 (-s).toNat
  let den := den * Nat.pow 10 s.toNat
  let lower := num / den
  let twice := 2 * (num % den)
  if twice < den ∨ (twice = den ∧ style.tieUp lower = false) then [(lower, s), (lower + 1, s)]
  else [(lower + 1, s), (lower, s)]

/-- The exact value of a finite double, spelled positionally. -/
def exact (x : Double) : Numeral :=
  let (num, den) := ratio x.magnitude
  let places := den.log2
  let ds := Digit.ofNat (num % den * Nat.pow 5 places)
  { negative := x.isNegative
    whole := num / den
    frac := fraction (List.replicate (places - ds.length) 0 ++ ds) }

/-- The shortest numeral whose nearest double is the finite, nonzero `x`. -/
def shortest (style : Style) (x : Double) : Numeral :=
  let candidates := (List.range 17).flatMap fun i =>
    (style.neighbours x.magnitude (i + 1)).map fun (k, s) => style.layout x.isNegative k s
  (candidates.find? fun n => n.nearest? = some x).getD x.exact

/-- The numeral of a double; infinities and NaNs have none. -/
def numeral? (style : Style) (x : Double) : Option Numeral :=
  if x.magnitude = 0 then some { negative := x.isNegative, whole := 0, frac := [0] }
  else if x.isFinite then some (x.shortest style)
  else none

end ClosedWorld.Double

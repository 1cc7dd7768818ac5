import ClosedWorld.Double.Rounding

/-!
# Numerals

A numeral is a number as it is spelled: a sign, a whole part without leading
zeros, the digits after the point and an exponent, each of the last two possibly
absent. Spelling matters twice. `1` and `1.0` are the same number, but only the
first is an integer literal; and the same double is written in one way in data
and in another in a listing, which differ in their numerals and in whether a
positive exponent shows its sign.
-/

namespace ClosedWorld

/-- A decimal digit. -/
abbrev Digit := Fin 10

namespace Digit

/-- The character of a digit. -/
def toChar (d : Digit) : Char := Nat.digitChar d.val

/-- The value of a digit character. -/
def ofChar? (c : Char) : Option Digit :=
  if h : '0'.toNat ≤ c.toNat ∧ c.toNat ≤ '9'.toNat then
    some ⟨c.toNat - '0'.toNat, by have := h.2; simp at this ⊢; omega⟩
  else none

/-- The number that a list of digits spells, continuing from `n`. -/
def toNat (n : Nat) (ds : List Digit) : Nat := ds.foldl (fun n d => 10 * n + d.val) n

/-- The digits of a number, the first one first. -/
def ofNat (n : Nat) : List Digit := (Nat.toDigits 10 n).filterMap ofChar?

end Digit

/-- A number as it is spelled. -/
structure Numeral where
  negative : Bool := false
  whole : Nat
  /-- The digits after the point; a numeral without a point has none. -/
  frac : List Digit := []
  exponent : Option Int := none
  deriving DecidableEq, Inhabited

namespace Numeral

/-- The digits of the numeral read as one integer, the point left out. -/
def mantissa (n : Numeral) : Nat := Digit.toNat n.whole n.frac

/-- The power of ten that scales the mantissa. -/
def scale (n : Numeral) : Int := n.exponent.getD 0 - n.frac.length

/-- The spelling of an integer. -/
def ofInt (i : Int) : Numeral := { negative := i < 0, whole := i.natAbs }

/-- The integer that the numeral spells. A point, an exponent or the sign of a
negative zero makes it a spelling of something else. -/
def toInt? (n : Numeral) : Option Int :=
  if n.frac ≠ [] ∨ n.exponent ≠ none ∨ (n.negative ∧ n.whole = 0) then none
  else some (if n.negative then -n.whole else n.whole)

/-- The double nearest to the numeral; none when it overflows. -/
def nearest? (n : Numeral) : Option Double :=
  Double.ofScientific n.negative n.mantissa n.scale

/-- The text of an exponent; `plus` asks for the sign of a positive one. -/
def exponentText (plus : Bool) (e : Int) : String :=
  (if e < 0 then "-" else if plus then "+" else "") ++ toString e.natAbs

/-- The text of a numeral. -/
def render (plus : Bool) (n : Numeral) : String :=
  (if n.negative then "-" else "") ++ toString n.whole
    ++ (if n.frac = [] then "" else "." ++ String.ofList (n.frac.map Digit.toChar))
    ++ (match n.exponent with
        | none => ""
        | some e => "e" ++ exponentText plus e)

end Numeral

end ClosedWorld

import ClosedWorld.Ty
import ClosedWorld.Double.Shortest

/-!
# Constants

A constant is data known before the program runs: numbers, zeros, addresses of
symbols and casts and arrays of these. Two questions are asked of it. Which
symbols does it mention, in order (`Constant.symbols`)? And is it the zero of
its type? `Constant.zeroOf?` builds that zero, one for every first-class type,
and `Constant.isZero` recognises it.

A constant carries its type as data, so nothing stops a text from pairing a
float with a type that is no float type. Such constants are kept as they are.
-/

namespace ClosedWorld

/-- A function or a global variable, named. -/
inductive Symbol where
  | func (name : String)
  | global (name : String)
  deriving DecidableEq, Inhabited

/-- The name alone; the two kinds of symbol share one space of names. -/
def Symbol.name : Symbol → String
  | .func name | .global name => name

/-- A value known before the program runs. -/
inductive Constant where
  | int (bits : UInt32) (value : Int64)
  | float (ty : Ty) (value : Double)
  /-- The null pointer of a pointer type. -/
  | null (ty : Ty)
  /-- An aggregate of zeros. -/
  | zeroInit (ty : Ty)
  | funcAddr (name : String)
  | globalAddr (name : String)
  /-- An address seen at another type. -/
  | bitcast (value : Constant) (ty : Ty)
  | array (elem : Ty) (elems : List Constant)
  deriving Inhabited

namespace Constant

/-! ## Zeros -/

/-- The zero of a type; only first-class types have one. -/
def zeroOf? : Ty → Option Constant
  | .void | .func .. => none
  | .int bits => some (.int bits 0)
  | .float => some (.float .float .zero)
  | .double => some (.float .double .zero)
  | .ptr pointee => some (.null (.ptr pointee))
  | .array elem len => some (.zeroInit (.array elem len))
  | .struct fields => some (.zeroInit (.struct fields))

/-- The type, where the constant alone tells it: that of an address depends on
the symbol. -/
def type? : Constant → Option Ty
  | .int bits _ => some (.int bits)
  | .float ty _ | .null ty | .zeroInit ty => some ty
  | .funcAddr _ | .globalAddr _ => none
  | .bitcast _ ty => some ty
  | .array elem elems => some (.array elem elems.length.toUInt64)

/-- The constant is a zero as `zeroOf?` writes it. A negative zero is not. -/
def isZero : Constant → Bool
  | .int _ value => value == 0
  | .float _ value => value == .zero
  | .null _ | .zeroInit _ => true
  | _ => false

/-! ## Symbols -/

mutual

/-- The symbols mentioned, from left to right. -/
def symbols : Constant → List Symbol
  | .funcAddr name => [.func name]
  | .globalAddr name => [.global name]
  | .bitcast value _ => symbols value
  | .array _ elems => symbolsAll elems
  | _ => []

/-- The symbols mentioned by a list of constants. -/
def symbolsAll : List Constant → List Symbol
  | [] => []
  | c :: cs => symbols c ++ symbolsAll cs

end

@[simp] theorem symbolsAll_eq_flatMap (cs : List Constant) :
    symbolsAll cs = cs.flatMap symbols := by
  induction cs with
  | nil => rfl
  | cons c cs ih => simp [symbolsAll, ih]

/-! ## Equality -/

mutual

/-- Compares two constants constructor by constructor. -/
def same : Constant → Constant → Bool
  | .int b v, .int b' v' => b == b' && v == v'
  | .float t v, .float t' v' => t == t' && v == v'
  | .null t, .null t' => t == t'
  | .zeroInit t, .zeroInit t' => t == t'
  | .funcAddr n, .funcAddr n' => n == n'
  | .globalAddr n, .globalAddr n' => n == n'
  | .bitcast c t, .bitcast c' t' => same c c' && t == t'
  | .array t cs, .array t' cs' => t == t' && sameAll cs cs'
  | _, _ => false

/-- Compares two lists of constants, lengths included. -/
def sameAll : List Constant → List Constant → Bool
  | [], [] => true
  | c :: cs, d :: ds => same c d && sameAll cs ds
  | _, _ => false

end

mutual

theorem same_iff (c d : Constant) : same c d = true ↔ c = d := by
  cases c <;> cases d <;> simp [same, same_iff, sameAll_iff]

theorem sameAll_iff (cs ds : List Constant) : sameAll cs ds = true ↔ cs = ds := by
  cases cs <;> cases ds <;> simp [sameAll, same_iff, sameAll_iff]

end

instance : DecidableEq Constant := fun c d => decidable_of_iff _ (same_iff c d)

/-! ## The printed form -/

/-- In a listing a double is positional from `1e-4` up to `1e16`, and of two
decimals equally near it the greater is written. -/
def doubleStyle : Double.Style where
  plainFrom := -4
  plainBelow := 16
  tieUp _ := true

/-- The printed form of a double. -/
def renderDouble (x : Double) : String :=
  match x.numeral? doubleStyle with
  | some n => n.render false
  | none => if x.isNaN then "NaN" else if x.isNegative then "-inf" else "inf"

mutual

/-- The printed form of a constant. -/
def render : Constant → String
  | .int bits value => "i" ++ toString bits.toNat ++ " " ++ toString value.toInt
  | .float ty value => ty.render ++ " " ++ renderDouble value
  | .null ty => ty.render ++ " null"
  | .zeroInit ty => ty.render ++ " zeroinitializer"
  | .funcAddr name | .globalAddr name => "@" ++ name
  | .bitcast value ty => "bitcast (" ++ render value ++ " to " ++ ty.render ++ ")"
  | .array elem elems =>
      "[" ++ toString elems.length ++ " x " ++ elem.render ++ "] ["
        ++ String.intercalate ", " (renderAll elems) ++ "]"

/-- The printed forms of a list of constants. -/
def renderAll : List Constant → List String
  | [] => []
  | c :: cs => render c :: renderAll cs

end

@[simp] theorem renderAll_eq_map (cs : List Constant) : renderAll cs = cs.map render := by
  induction cs with
  | nil => rfl
  | cons c cs ih => simp [renderAll, ih]

end Constant

end ClosedWorld

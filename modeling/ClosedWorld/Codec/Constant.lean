import ClosedWorld.Codec.Ty
import ClosedWorld.Constant

/-!
# Constants as data

A constant is a tag with its parts under it. A double is a number, positional
from `1e-5` up to `1e16`; the infinities and the NaNs have no number and are
written as null, which is not read back.
-/

namespace ClosedWorld

/-- In data a double is positional from `1e-5` up to `1e16`, and of two decimals
equally near it the one with an even last digit is written. -/
def Json.doubleStyle : Double.Style where
  plainFrom := -5
  plainBelow := 16
  tieUp lower := lower % 2 == 1

/-- The data of a double. -/
def Double.toJson (x : Double) : Json :=
  match x.numeral? Json.doubleStyle with
  | some n => .num n
  | none => .null

namespace Constant

mutual

/-- The data of a constant. -/
def toJson : Constant → Json
  | .int bits value =>
      .tagged "int" (.record [("bits", .int bits.toNat), ("value", .int value.toInt)])
  | .float ty value => .tagged "float" (.record [("ty", ty.toJson), ("value", value.toJson)])
  | .null ty => .tagged "null" ty.toJson
  | .zeroInit ty => .tagged "zero_init" ty.toJson
  | .funcAddr name => .tagged "function_addr" (.text name)
  | .globalAddr name => .tagged "global_addr" (.text name)
  | .bitcast value ty =>
      .tagged "bitcast" (.record [("value", toJson value), ("to", ty.toJson)])
  | .array elem elems =>
      .tagged "array" (.record [("elem", elem.toJson), ("elems", .arr (toJsonAll elems))])

/-- The data of a list of constants. -/
def toJsonAll : List Constant → List Json
  | [] => []
  | c :: cs => toJson c :: toJsonAll cs

end

@[simp] theorem toJsonAll_eq_map (cs : List Constant) : toJsonAll cs = cs.map toJson := by
  induction cs with
  | nil => rfl
  | cons c cs ih => simp [toJsonAll, ih]

/-- The constant that some data describe, within a depth. -/
def ofJson? : Nat → Json → Option Constant
  | depth + 1, .obj [(some tag, value)] =>
      match tag, depth with
      | "int", _ + 1 =>
          match value.fields? ["bits", "value"] with
          | some [some bits, some value] => return .int (← bits.uint32?) (← value.int64?)
          | _ => none
      | "float", depth + 1 =>
          match value.fields? ["ty", "value"] with
          | some [some ty, some value] =>
              return .float (← Ty.ofJson? depth ty) (← value.double?)
          | _ => none
      | "null", depth => (Ty.ofJson? depth value).map .null
      | "zero_init", depth => (Ty.ofJson? depth value).map .zeroInit
      | "function_addr", _ => value.text?.map .funcAddr
      | "global_addr", _ => value.text?.map .globalAddr
      | "bitcast", depth + 1 =>
          match value.fields? ["value", "to"] with
          | some [some value, some ty] =>
              return .bitcast (← ofJson? depth value) (← Ty.ofJson? depth ty)
          | _ => none
      | "array", depth + 2 =>
          match value.fields? ["elem", "elems"] with
          | some [some elem, some (.arr elems)] =>
              return .array (← Ty.ofJson? (depth + 1) elem) (← elems.mapM (ofJson? depth))
          | _ => none
      | _, _ => none
  | _, _ => none

end Constant

end ClosedWorld

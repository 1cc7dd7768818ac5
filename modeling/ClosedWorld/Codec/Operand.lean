import ClosedWorld.Codec.Constant
import ClosedWorld.Operand

/-!
# Operands as data

An operand is a tag with its parts under it; a register is its number.
-/

namespace ClosedWorld

/-- The data of a register. -/
def Reg.toJson (r : Reg) : Json := .int r.id.toNat

/-- The register that some data describe. -/
def Reg.ofJson? (j : Json) : Option Reg := j.uint32?.map Reg.mk

namespace Operand

/-- The data of an operand. -/
def toJson : Operand → Json
  | .func name => .tagged "function" (.text name)
  | .global name => .tagged "global" (.text name)
  | .reg r => .tagged "reg" r.toJson
  | .arg index => .tagged "arg" (.int index.toNat)
  | .const c => .tagged "const" c.toJson
  | .cast value ty => .tagged "cast" (.record [("value", value.toJson), ("to", ty.toJson)])
  | .asm code constraints =>
      .tagged "inline_asm" (.record [("asm", .text code), ("constraints", .text constraints)])

/-- The operand that some data describe, within a depth. -/
def ofJson? : Nat → Json → Option Operand
  | depth + 1, .obj [(some tag, value)] =>
      match tag, depth with
      | "function", _ => value.text?.map .func
      | "global", _ => value.text?.map .global
      | "reg", _ => (Reg.ofJson? value).map .reg
      | "arg", _ => value.uint32?.map .arg
      | "const", depth => (Constant.ofJson? depth value).map .const
      | "cast", depth + 1 =>
          match value.fields? ["value", "to"] with
          | some [some value, some ty] =>
              return .cast (← ofJson? depth value) (← Ty.ofJson? depth ty)
          | _ => none
      | "inline_asm", _ + 1 =>
          match value.fields? ["asm", "constraints"] with
          | some [some code, constraints] =>
              return .asm (← code.text?) (← Json.fieldOr Json.text? "" constraints)
          | _ => none
      | _, _ => none
  | _, _ => none

end Operand

end ClosedWorld

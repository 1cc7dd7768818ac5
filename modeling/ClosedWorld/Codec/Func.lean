import ClosedWorld.Codec.Operand
import ClosedWorld.Func

/-!
# Functions and their instructions as data

Everything from a call up to a function is a record. The fields that have a
usual value may be left out: a result that is not bound, arguments, parameters,
the linkage, the body.
-/

namespace ClosedWorld

namespace Call

/-- The data of a call. -/
def toJson (c : Call) : Json :=
  .record [("result", .option Reg.toJson c.result), ("ret_ty", c.ret.toJson),
    ("callee", c.callee.toJson), ("args", .list Operand.toJson c.args)]

/-- The call that some data describe, within a depth. -/
def ofJson? (depth : Nat) (j : Json) : Option Call := do
  match ← j.fieldsAt? ["result", "ret_ty", "callee", "args"] depth with
  | (depth, [result, some ret, some callee, args]) =>
      return {
        result := ← Json.fieldOr (Json.option? Reg.ofJson?) none result
        ret := ← Ty.ofJson? depth ret
        callee := ← Operand.ofJson? depth callee
        args := ← Json.fieldOr (Json.listAt? Operand.ofJson? depth) [] args }
  | _ => none

end Call

namespace Instr

/-- The data of an instruction. -/
def toJson : Instr → Json
  | .call c => .tagged "call" c.toJson
  | .op result ty opcode operands =>
      .tagged "op" (.record [("result", .option Reg.toJson result), ("ty", ty.toJson),
        ("opcode", .text opcode), ("operands", .list Operand.toJson operands)])
  | .store value target =>
      .tagged "store" (.record [("value", value.toJson), ("ptr", target.toJson)])
  | .ret value => .tagged "ret" (.option Operand.toJson value)

/-- The operation that some data describe, within a depth. -/
def opOfJson? (depth : Nat) (j : Json) : Option Instr := do
  match ← j.fieldsAt? ["result", "ty", "opcode", "operands"] depth with
  | (depth, [result, some ty, some opcode, operands]) =>
      return .op
        (← Json.fieldOr (Json.option? Reg.ofJson?) none result)
        (← Ty.ofJson? depth ty)
        (← opcode.text?)
        (← Json.fieldOr (Json.listAt? Operand.ofJson? depth) [] operands)
  | _ => none

/-- The store that some data describe, within a depth. -/
def storeOfJson? (depth : Nat) (j : Json) : Option Instr := do
  match ← j.fieldsAt? ["value", "ptr"] depth with
  | (depth, [some value, some target]) =>
      return .store (← Operand.ofJson? depth value) (← Operand.ofJson? depth target)
  | _ => none

/-- The instruction that some data describe, within a depth. -/
def ofJson? (depth : Nat) (j : Json) : Option Instr := do
  match ← j.taggedAt? depth with
  | ("call", depth, value) => (Call.ofJson? depth value).map .call
  | ("op", depth, value) => opOfJson? depth value
  | ("store", depth, value) => storeOfJson? depth value
  | ("ret", depth, value) => (Json.option? (Operand.ofJson? depth) value).map .ret
  | _ => none

end Instr

namespace Block

/-- The data of a block. -/
def toJson (b : Block) : Json :=
  .record [("label", .text b.label), ("instructions", .list Instr.toJson b.instrs)]

/-- The block that some data describe, within a depth. -/
def ofJson? (depth : Nat) (j : Json) : Option Block := do
  match ← j.fieldsAt? ["label", "instructions"] depth with
  | (depth, [some label, some instrs]) =>
      return { label := ← label.text?, instrs := ← Json.listAt? Instr.ofJson? depth instrs }
  | _ => none

end Block

namespace Linkage

/-- The name of a linkage. -/
def name : Linkage → String
  | .external => "external"
  | .internal => "internal"

/-- The linkage of a name. -/
def ofName? : String → Option Linkage
  | "external" => some .external
  | "internal" => some .internal
  | _ => none

/-- The data of a linkage. -/
def toJson (l : Linkage) : Json := .text l.name

/-- The linkage that some data describe, within a depth. -/
def ofJson? (depth : Nat) (j : Json) : Option Linkage := (j.nameAt? depth).bind ofName?

end Linkage

namespace Func

/-- The data of a function. -/
def toJson (f : Func) : Json :=
  .record [("name", .text f.name), ("ret_ty", f.ret.toJson), ("params", .list Ty.toJson f.params),
    ("variadic", .bool f.variadic), ("linkage", f.linkage.toJson),
    ("blocks", .option (.list Block.toJson) f.body)]

/-- The function that some data describe, within a depth. -/
def ofJson? (depth : Nat) (j : Json) : Option Func := do
  match ← j.fieldsAt? ["name", "ret_ty", "params", "variadic", "linkage", "blocks"] depth with
  | (depth, [some name, some ret, params, variadic, linkage, body]) =>
      return {
        name := ← name.text?
        ret := ← Ty.ofJson? depth ret
        params := ← Json.fieldOr (Json.listAt? Ty.ofJson? depth) [] params
        variadic := ← Json.fieldOr Json.bool? false variadic
        linkage := ← Json.fieldOr (Linkage.ofJson? depth) .external linkage
        body := ← Json.fieldOr (Json.option? (Json.listAt? Block.ofJson? depth)) none body }
  | _ => none

end Func

end ClosedWorld

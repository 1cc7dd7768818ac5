import ClosedWorld.Operand

/-!
# Instructions

Only calls matter in themselves; a store, a return and every other operation are
kept for the operands they have and the register they define. `Instr.operands`
lists the operands in reading order, a call's callee first, and
`Instr.replace` reaches exactly the operands that list shows.
-/

namespace ClosedWorld

/-- A call. -/
structure Call where
  /-- The register that receives the result, if one does. -/
  result : Option Reg
  ret : Ty
  callee : Operand
  args : List Operand
  deriving DecidableEq, Inhabited

/-- The callee is machine code. -/
def Call.isAsm (c : Call) : Bool := c.callee.isAsm

/-- A step of a basic block. -/
inductive Instr where
  | call (c : Call)
  /-- Any operation with no rule of its own, under its mnemonic. -/
  | op (result : Option Reg) (ty : Ty) (opcode : String) (operands : List Operand)
  | store (value target : Operand)
  | ret (value : Option Operand)
  deriving DecidableEq, Inhabited

/-- Changes each member of a list and adds up what the changes count. -/
def mapCounting {α : Type} (f : α → α × Nat) : List α → List α × Nat
  | [] => ([], 0)
  | a :: as =>
      let (a, m) := f a
      let (as, n) := mapCounting f as
      (a :: as, m + n)

namespace Instr

/-- The register that the instruction defines. -/
def result? : Instr → Option Reg
  | .call c => c.result
  | .op result .. => result
  | .store .. | .ret _ => none

/-- The call that the instruction is. -/
def call? : Instr → Option Call
  | .call c => some c
  | _ => none

/-- The operands in reading order. -/
def operands : Instr → List Operand
  | .call c => c.callee :: c.args
  | .op _ _ _ operands => operands
  | .store value target => [value, target]
  | .ret value => value.toList

/-- Puts `new` where an operand reads register `r`, and counts the
replacements. -/
def replace (i : Instr) (r : Reg) (new : Operand) : Instr × Nat :=
  match i with
  | .call c =>
      let (callee, m) := c.callee.replace r new
      let (args, n) := mapCounting (·.replace r new) c.args
      (.call { c with callee, args }, m + n)
  | .op result ty opcode operands =>
      let (operands, n) := mapCounting (·.replace r new) operands
      (.op result ty opcode operands, n)
  | .store value target =>
      let (value, m) := value.replace r new
      let (target, n) := target.replace r new
      (.store value target, m + n)
  | .ret none => (.ret none, 0)
  | .ret (some value) =>
      let (value, n) := value.replace r new
      (.ret (some value), n)

/-- The left side of a definition. -/
def binding : Option Reg → String
  | none => ""
  | some r => r.render ++ " = "

/-- The printed form of an instruction. -/
def render : Instr → String
  | .call c =>
      binding c.result ++ "call " ++ c.ret.render ++ " " ++ c.callee.render
        ++ "(" ++ Operand.renderList c.args ++ ")"
  | .op result ty opcode operands =>
      binding result ++ opcode ++ " " ++ ty.render
        ++ (if operands = [] then "" else " " ++ Operand.renderList operands)
  | .store value target => "store " ++ value.render ++ ", " ++ target.render
  | .ret none => "ret void"
  | .ret (some value) => "ret " ++ value.render

end Instr

end ClosedWorld

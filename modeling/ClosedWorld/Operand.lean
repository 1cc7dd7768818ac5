import ClosedWorld.Constant
import ClosedWorld.Text.Quoted

/-!
# Operands

An operand is what an instruction works on, seen through any number of pointer
casts. Everything the library asks of an operand it asks of its `core`, the
operand under the casts: the function it calls, the register it reads, the
symbols it mentions. A core holds at most one register, so replacing a register
in an operand happens in one place or not at all, and the casts stay.
-/

namespace ClosedWorld

/-- A virtual register, the name of an instruction's result in its function. -/
structure Reg where
  id : UInt32
  deriving DecidableEq, Inhabited, Hashable

/-- The printed form of a register. -/
def Reg.render (r : Reg) : String := "%" ++ toString r.id.toNat

/-- What an instruction works on. -/
inductive Operand where
  | func (name : String)
  | global (name : String)
  | reg (r : Reg)
  /-- A parameter of the enclosing function, by position. -/
  | arg (index : UInt32)
  | const (c : Constant)
  | cast (value : Operand) (ty : Ty)
  /-- Machine code, as the callee of a call. -/
  | asm (code constraints : String)
  deriving DecidableEq, Inhabited

namespace Operand

/-- The operand under its pointer casts. -/
def core : Operand → Operand
  | .cast value _ => value.core
  | v => v

/-- The function that the operand names, casts aside. -/
def callee? (v : Operand) : Option String :=
  match v.core with
  | .func name => some name
  | _ => none

/-- The register that the operand reads, casts aside. -/
def reg? (v : Operand) : Option Reg :=
  match v.core with
  | .reg r => some r
  | _ => none

/-- The operand reads register `r`. -/
def uses (v : Operand) (r : Reg) : Bool := v.reg? == some r

/-- The operand is machine code itself; under a cast it is not one. -/
def isAsm : Operand → Bool
  | .asm .. => true
  | _ => false

/-- The symbols mentioned, from left to right. -/
def symbols : Operand → List Symbol
  | .func name => [.func name]
  | .global name => [.global name]
  | .const c => c.symbols
  | .cast value _ => value.symbols
  | .reg _ | .arg _ | .asm .. => []

/-- Puts `new` where the operand reads register `r`, and counts the
replacements. -/
def replace : Operand → Reg → Operand → Operand × Nat
  | .reg r', r, new => if r' = r then (new, 1) else (.reg r', 0)
  | .cast value ty, r, new =>
      let (value, n) := value.replace r new
      (.cast value ty, n)
  | v, _, _ => (v, 0)

/-- The printed form of an operand. -/
def render : Operand → String
  | .func name | .global name => "@" ++ name
  | .reg r => r.render
  | .arg index => "%arg" ++ toString index.toNat
  | .const c => c.render
  | .cast value ty => "bitcast (" ++ value.render ++ " to " ++ ty.render ++ ")"
  | .asm code constraints => "asm " ++ Quoted.quote code ++ ", " ++ Quoted.quote constraints

/-- The printed forms of several operands, with commas between them. -/
def renderList (vs : List Operand) : String := String.intercalate ", " (vs.map render)

end Operand

end ClosedWorld

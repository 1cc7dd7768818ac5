import ClosedWorld.Program

/-!
# Well-formed programs

A program is well formed when its symbols have names, every symbol it mentions
exists, every register that a function reads is defined in it, no register is
defined twice, and no void call binds a result. `Program.findings` lists each violation where it
occurs, one finding for one occurrence, in the order in which a reader meets
them: globals first, then function by function.
-/

namespace ClosedWorld

/-- One violation. The owner is the function or the global that contains it. -/
inductive Finding where
  | unnamedSymbol
  | unknownSymbol (owner : String) (symbol : Symbol)
  /-- One definition of the register too many. -/
  | redefinedReg (owner : String) (r : Reg)
  | undefinedReg (owner : String) (r : Reg)
  /-- A void call with a result register; other calls may drop their result. -/
  | voidResult (owner : String) (callee : Operand)
  deriving DecidableEq, Inhabited

namespace Finding

/-- The sentence that reports a finding. -/
def message : Finding → String
  | .unnamedSymbol => "symbol with empty name"
  | .unknownSymbol owner (.func name) => s!"'{owner}' references unknown function '{name}'"
  | .unknownSymbol owner (.global name) => s!"'{owner}' references unknown global '{name}'"
  | .redefinedReg owner r => s!"{r.render} defined more than once in '{owner}'"
  | .undefinedReg owner r => s!"{r.render} used but not defined in '{owner}'"
  | .voidResult owner callee =>
      s!"void call to {callee.render} in '{owner}' binds a result register"

end Finding

/-- Nameless symbols are violations. -/
def nameFindings (name : String) : List Finding :=
  if name = "" then [.unnamedSymbol] else []

/-- The mentioned symbols that the program lacks. -/
def Program.symbolFindings (p : Program) (owner : String) (symbols : List Symbol) : List Finding :=
  (symbols.filter fun s => !p.defines s).map (.unknownSymbol owner)

namespace Func

/-- The registers that the instructions define, each as often as it is. -/
def definedRegs (f : Func) : List Reg := f.instrs.filterMap Instr.result?

/-- The registers of a list that were seen before, in it or ahead of it. -/
def repeated (seen : List Reg) : List Reg → List Reg
  | [] => []
  | r :: rs => if r ∈ seen then r :: repeated seen rs else repeated (r :: seen) rs

end Func

/-- The violations of one operand, in a function that defines `defined`. -/
def Program.operandFindings (p : Program) (owner : String) (defined : List Reg) (v : Operand) :
    List Finding :=
  p.symbolFindings owner v.symbols
    ++ (v.reg?.toList.filter (· ∉ defined)).map (.undefinedReg owner)

/-- A void call that binds a result. -/
def Instr.resultFindings (owner : String) : Instr → List Finding
  | .call c => if c.ret.isVoid ∧ c.result.isSome then [.voidResult owner c.callee] else []
  | _ => []

/-- The violations of one global. -/
def Program.globalFindings (p : Program) (g : Global) : List Finding :=
  nameFindings g.name ++ g.initial.toList.flatMap fun c => p.symbolFindings g.name c.symbols

/-- The violations of one function. -/
def Program.functionFindings (p : Program) (f : Func) : List Finding :=
  let defined := f.definedRegs
  nameFindings f.name ++ (Func.repeated [] defined).map (.redefinedReg f.name)
    ++ f.instrs.flatMap fun i =>
      i.resultFindings f.name ++ i.operands.flatMap (p.operandFindings f.name defined)

/-- Every violation, in reading order. -/
def Program.findings (p : Program) : List Finding :=
  p.globals.flatMap p.globalFindings ++ p.functions.flatMap p.functionFindings

end ClosedWorld

import ClosedWorld.Program.Checked

/-!
# Where calls lead

A call leads to a function of the program if its callee names one, seen through
casts; a call through a register, to machine code or to an address held in a
constant leads nowhere that can be told in advance. A name that is empty, or
that the program lacks, is an error and not an unknown target.

Intrinsics are left alone by every stage, so a stage asks for the *subject* of a
call: the function it leads to, unless that is an intrinsic.
-/

namespace ClosedWorld

/-- A call and its place. -/
structure CallSite where
  caller : String
  /-- The label of the block. -/
  block : String
  /-- The position in the block. -/
  index : Nat
  call : Call
  deriving DecidableEq, Inhabited

/-- The calls of a block, with their places. -/
def Block.callSites (caller : String) (b : Block) : List CallSite :=
  b.instrs.zipIdx.filterMap fun (i, index) =>
    i.call?.map fun call => { caller, block := b.label, index, call }

/-- The calls of a function, with their places. -/
def Func.callSites (f : Func) : List CallSite := f.blocks.flatMap (·.callSites f.name)

namespace Program

/-- The calls of a program, with their places. -/
def callSites (p : Program) : List CallSite := p.functions.flatMap Func.callSites

/-- The function that a call leads to, where that can be told. -/
def target? (p : Program) (caller : String) (c : Call) : Except Error (Option Func) :=
  match c.callee.callee? with
  | none => .ok none
  | some name =>
      if name = "" then .error (.unnamedCallee caller)
      else
        match p.function? name with
        | none => .error (.danglingSymbol caller name)
        | some f => .ok (some f)

/-- The function that a call leads to, unless it is an intrinsic. -/
def subject? (p : Program) (caller : String) (c : Call) : Except Error (Option Func) :=
  return (← p.target? caller c).filter (!·.isIntrinsic)

end Program

end ClosedWorld

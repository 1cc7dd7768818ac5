import ClosedWorld.Instr

/-!
# Functions

A function is its signature, its linkage and perhaps a body. A body without
blocks is no body: such a function is a declaration, like one without the list
of blocks. Declarations whose name starts with `llvm.` are intrinsics, which the
compiler supplies itself.
-/

namespace ClosedWorld

/-- Who can see a symbol. -/
inductive Linkage where
  /-- Other programs can. -/
  | external
  /-- Only this program can. -/
  | internal
  deriving DecidableEq, Inhabited

/-- A labelled run of instructions. -/
structure Block where
  label : String
  instrs : List Instr
  deriving DecidableEq, Inhabited

/-- Puts `new` where the instructions read register `r`, and counts the
replacements. -/
def Block.replace (b : Block) (r : Reg) (new : Operand) : Block × Nat :=
  let (instrs, n) := mapCounting (·.replace r new) b.instrs
  ({ b with instrs }, n)

/-- A function, defined or declared. -/
structure Func where
  name : String
  ret : Ty
  params : List Ty := []
  variadic : Bool := false
  linkage : Linkage := .external
  /-- The blocks of the body. -/
  body : Option (List Block) := none
  deriving DecidableEq, Inhabited

/-- The name belongs to an intrinsic. -/
def isIntrinsicName (name : String) : Bool := name.startsWith "llvm."

namespace Func

/-- The blocks of the body; a declaration has none. -/
def blocks (f : Func) : List Block := f.body.getD []

/-- The function has no body. -/
def isDeclaration (f : Func) : Bool := f.blocks.isEmpty

/-- The compiler supplies the function. -/
def isIntrinsic (f : Func) : Bool := isIntrinsicName f.name

/-- The signature. -/
def type (f : Func) : Ty := .func f.ret f.params f.variadic

/-- The instructions of the body, block by block. -/
def instrs (f : Func) : List Instr := f.blocks.flatMap Block.instrs

/-- The calls of the body, block by block. -/
def calls (f : Func) : List Call := f.instrs.filterMap Instr.call?

/-- Drops the body: what is left is an external declaration. -/
def stripped (f : Func) : Func := { f with body := none, linkage := .external }

/-- The number of operands that read register `r`. -/
def countUses (f : Func) (r : Reg) : Nat :=
  (f.instrs.flatMap Instr.operands).countP (·.uses r)

/-- Puts `new` where the body reads register `r`, and counts the
replacements. -/
def replaceUses (f : Func) (r : Reg) (new : Operand) : Func × Nat :=
  match f.body with
  | none => (f, 0)
  | some blocks =>
      let (blocks, n) := mapCounting (·.replace r new) blocks
      ({ f with body := some blocks }, n)

/-- Appends an instruction to the last block; a function without a block has no
place for one. -/
def append? (f : Func) (i : Instr) : Option Func :=
  match f.blocks.getLast? with
  | none => none
  | some last =>
      let last := { last with instrs := last.instrs ++ [i] }
      some { f with body := some (f.blocks.dropLast ++ [last]) }

end Func

end ClosedWorld

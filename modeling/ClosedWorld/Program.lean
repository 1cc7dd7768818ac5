import ClosedWorld.Func

/-!
# Programs

A program is a named list of functions and a named list of global variables,
each list in the order in which its members were added. Lookup is by name. A
list is *keyed* when no name occurs in it twice, and `Program.Keyed` asks that
of both. Functions and globals share one space of names, so whatever adds a
symbol to a program asks `Program.hasName` first.
-/

namespace ClosedWorld

/-- A global variable. -/
structure Global where
  name : String
  ty : Ty
  /-- The storage is read-only. -/
  isConstant : Bool := false
  linkage : Linkage := .external
  /-- The value at the start; storage defined elsewhere has none. -/
  initial : Option Constant := none
  deriving DecidableEq, Inhabited

/-- A whole program. -/
structure Program where
  name : String := ""
  functions : List Func := []
  globals : List Global := []
  deriving DecidableEq, Inhabited

namespace Program

/-- No two functions share a name, and no two globals do. -/
def Keyed (p : Program) : Prop :=
  (p.functions.map Func.name).Nodup ∧ (p.globals.map Global.name).Nodup

instance (p : Program) : Decidable p.Keyed := inferInstanceAs (Decidable (_ ∧ _))

/-- The function of a name. -/
def function? (p : Program) (name : String) : Option Func :=
  p.functions.find? (·.name == name)

/-- The global of a name. -/
def global? (p : Program) (name : String) : Option Global :=
  p.globals.find? (·.name == name)

/-- The symbol exists. -/
def defines (p : Program) : Symbol → Bool
  | .func name => (p.function? name).isSome
  | .global name => (p.global? name).isSome

/-- A function or a global carries the name. -/
def hasName (p : Program) (name : String) : Bool :=
  p.defines (.func name) || p.defines (.global name)

/-- Changes the function of a name. -/
def modify (p : Program) (name : String) (change : Func → Func) : Program :=
  { p with functions := p.functions.map fun f => if f.name = name then change f else f }

/-- The number of instructions in all bodies. -/
def instrCount (p : Program) : Nat := (p.functions.flatMap Func.instrs).length

end Program

end ClosedWorld

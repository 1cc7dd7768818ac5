import ClosedWorld.Error

/-!
# Operations on programs that can fail

Adding a symbol fails when its name is taken, by a function or by a global.
Verification fails when there is any finding, and its error carries them all.
A failed operation leaves nothing behind: there is no program in an error.
-/

namespace ClosedWorld.Program

/-- Adds a function at the end, unless its name is taken. -/
def addFunction (p : Program) (f : Func) : Except Error Program :=
  if p.hasName f.name then .error (.duplicateSymbol f.name)
  else .ok { p with functions := p.functions ++ [f] }

/-- Adds a global at the end, unless its name is taken. -/
def addGlobal (p : Program) (g : Global) : Except Error Program :=
  if p.hasName g.name then .error (.duplicateSymbol g.name)
  else .ok { p with globals := p.globals ++ [g] }

/-- Fails with every violation of well-formedness, if there is one. -/
def verify (p : Program) : Except Error Unit :=
  if p.findings = [] then .ok () else .error (.malformedProgram p.findings)

end ClosedWorld.Program

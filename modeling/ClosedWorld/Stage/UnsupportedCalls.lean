import ClosedWorld.CallSite
import ClosedWorld.Event

/-!
# Finding the calls that cannot be modelled

The first stage changes nothing. It looks at every call of the program in order
and reports the ones whose subject is on the list of unsupported functions. A
call that leads to no function of the program ends the search with its error.
-/

namespace ClosedWorld

/-- A call to an unsupported function. -/
structure UnsupportedCall where
  caller : String
  /-- The label of the block. -/
  block : String
  /-- The position in the block. -/
  index : Nat
  callee : String
  deriving DecidableEq, Inhabited

namespace UnsupportedCall

/-- The report of an unsupported call. -/
def diagnostic (u : UnsupportedCall) : Diagnostic :=
  { kind := .unsupportedCall, symbol := u.callee, caller := some u.caller }

end UnsupportedCall

namespace Program

/-- A call site, if its subject is one of the names. -/
def unsupported? (p : Program) (names : List String) (s : CallSite) :
    Except Error (Option UnsupportedCall) := do
  match ← p.subject? s.caller s.call with
  | some f =>
      if names.contains f.name then
        return some { caller := s.caller, block := s.block, index := s.index, callee := f.name }
      else return none
  | none => return none

/-- Every call whose subject is one of the names. -/
def unsupportedCalls (p : Program) (names : List String) : Except Error (List UnsupportedCall) :=
  p.callSites.filterMapM (p.unsupported? names)

/-- The stage that reports unsupported calls. -/
def checkUnsupported (p : Program) (c : Config) : Outcome Bool :=
  match p.unsupportedCalls c.unsupported with
  | .ok found =>
      { program := p, events := found.map (.diagnostic ·.diagnostic), result := .ok false }
  | .error e => .check p (.error e)

end Program

end ClosedWorld

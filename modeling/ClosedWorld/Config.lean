import ClosedWorld.Oracle

/-!
# Configuration

A configuration names the stages of a run, in order, and the functions that the
stages treat in a special way. `Config.check` refuses the ones no run can work
with: a stage listed twice, and, where the prepare stage is asked for, an entry
function or an entry table without a name.

The lists of names are sets that happen to be written as lists. Their order
shows only in the order in which bodies are dropped.
-/

namespace ClosedWorld

/-- One pass over the program. -/
inductive Stage where
  /-- Report the calls that the verifier cannot model. -/
  | checkUnsupported
  /-- Remove the calls to functions that are neither defined nor trusted. -/
  | deleteUndefined
  /-- Drop oracle bodies, zero the globals, publish the entry table. -/
  | prepare
  deriving DecidableEq, Inhabited

namespace Stage

/-- The stages in their usual order. -/
def all : List Stage := [.checkUnsupported, .deleteUndefined, .prepare]

/-- The name under which a stage is configured and reported. -/
def name : Stage → String
  | .checkUnsupported => "check-unsupported"
  | .deleteUndefined => "delete-undefined"
  | .prepare => "prepare"

/-- The stage of a name. -/
def ofName? (name : String) : Option Stage := all.find? (·.name == name)

end Stage

/-- Why a configuration is refused. -/
inductive ConfigError where
  /-- The text does not describe a configuration. -/
  | undecodable
  | unknownStage (name : String)
  | repeatedStage (stage : Stage)
  | unnamedEntryFunction
  | unnamedEntryTable
  deriving DecidableEq, Inhabited

/-- What happens when the program already has an entry table. -/
inductive TablePolicy where
  /-- It stays, and the run reports it. -/
  | keep
  /-- The run fails. -/
  | reject
  deriving DecidableEq, Inhabited

/-- The functions that are trusted to exist when the program is verified: those
whose name starts with a mark, and some others by name. -/
structure TrustList where
  mark : String
  names : List String
  deriving DecidableEq, Inhabited

/-- The function of this name is trusted to exist. An empty mark marks nothing. -/
def TrustList.trusts (t : TrustList) (name : String) : Bool :=
  (t.mark ≠ "" && name.startsWith t.mark) || t.names.contains name

/-- What a run does. -/
structure Config where
  /-- The functions that the verifier cannot model. -/
  unsupported : List String := ["pthread_create"]
  /-- What the names of trusted primitives start with. -/
  oracleMark : String := Oracle.primitiveMark
  /-- The other trusted functions. -/
  trusted : List String := Oracle.defaultTrusted
  /-- The functions whose bodies are dropped. -/
  stripped : List String := Oracle.defaultStripped
  /-- The function that the entry table lists. -/
  entryFunction : String := "main"
  /-- The reserved name of the entry table. -/
  entryTable : String := "__ai_init_functions"
  tablePolicy : TablePolicy := .keep
  stages : List Stage := Stage.all
  /-- Refuse a program that is malformed before the first stage. -/
  verifyInput : Bool := true
  /-- Refuse a program that is malformed after the last stage. -/
  verifyOutput : Bool := true
  deriving DecidableEq, Inhabited

namespace Config

/-- The first stage of a list that stands in it before. -/
def repeatedStage? (seen : List Stage) : List Stage → Option Stage
  | [] => none
  | s :: ss => if s ∈ seen then some s else repeatedStage? (s :: seen) ss

/-- The stage is part of the run. -/
def runs (c : Config) (s : Stage) : Bool := c.stages.contains s

/-- The functions that a configuration trusts to exist. -/
def trustList (c : Config) : TrustList := ⟨c.oracleMark, c.trusted⟩

/-- Refuses a configuration that no run can work with. -/
def check (c : Config) : Except ConfigError Unit :=
  if c.runs .prepare ∧ c.entryFunction = "" then .error .unnamedEntryFunction
  else if c.runs .prepare ∧ c.entryTable = "" then .error .unnamedEntryTable
  else
    match repeatedStage? [] c.stages with
    | some s => .error (.repeatedStage s)
    | none => .ok ()

end Config

end ClosedWorld

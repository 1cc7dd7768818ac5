/-!
# Diagnostics

A run reports what it found and what it changed, one diagnostic for each
finding or change. Two kinds are *unsound*: a removed call and a dropped body
change what the program means, and the reader of a verdict has to know.
-/

namespace ClosedWorld

/-- What a diagnostic reports. -/
inductive Diagnostic.Kind where
  /-- A call that the verifier cannot model. -/
  | unsupportedCall
  /-- A call to an undefined function, removed. -/
  | removedCall
  /-- An oracle that lost its body. -/
  | strippedBody
  /-- A global that got a zero. -/
  | initializedGlobal
  /-- The entry table was added. -/
  | entryTableCreated
  /-- The entry table was there and stayed. -/
  | entryTableKept
  deriving DecidableEq, Inhabited

/-- Whether the program still means the same. -/
inductive Severity where
  | info
  | unsound
  deriving DecidableEq, Inhabited

namespace Severity

/-- The name of a severity. -/
def name : Severity → String
  | .info => "Info"
  | .unsound => "Unsound"

end Severity

namespace Diagnostic.Kind

/-- Every kind. -/
def all : List Kind :=
  [.unsupportedCall, .removedCall, .strippedBody, .initializedGlobal, .entryTableCreated,
    .entryTableKept]

/-- The name of a kind. -/
def name : Kind → String
  | .unsupportedCall => "UnsupportedCall"
  | .removedCall => "RemovedCall"
  | .strippedBody => "StrippedBody"
  | .initializedGlobal => "InitializedGlobal"
  | .entryTableCreated => "EntryTableCreated"
  | .entryTableKept => "EntryTableKept"

/-- The kind of a name. -/
def ofName? (name : String) : Option Kind := all.find? (·.name == name)

/-- Only removals and dropped bodies change what the program means. -/
def severity : Kind → Severity
  | .removedCall | .strippedBody => .unsound
  | _ => .info

end Diagnostic.Kind

/-- One finding or change, with the symbol it concerns. -/
structure Diagnostic where
  kind : Diagnostic.Kind
  /-- The callee, function, global or table. -/
  symbol : String
  /-- The function that contains the call, where the diagnostic is about one. -/
  caller : Option String := none
  deriving DecidableEq, Inhabited

namespace Diagnostic

/-- The severity of its kind. -/
def severity (d : Diagnostic) : Severity := d.kind.severity

/-- The reported change alters what the program means. -/
def isUnsound (d : Diagnostic) : Bool := d.severity == .unsound

/-- The sentence that reports a diagnostic. -/
def message (d : Diagnostic) : String :=
  let site := d.caller.getD "?"
  match d.kind with
  | .unsupportedCall => s!"unsupported call to '{d.symbol}' in '{site}'"
  | .removedCall => s!"removing call to '{d.symbol}' in '{site}' (unsound)"
  | .strippedBody => s!"deleting body of '{d.symbol}'"
  | .initializedGlobal => s!"making '{d.symbol}' non-extern (zero-initialized)"
  | .entryTableCreated => s!"publishing entry table '{d.symbol}'"
  | .entryTableKept => s!"entry table '{d.symbol}' already present, keeping it"

end Diagnostic

/-- What a run hands back. -/
structure Report where
  /-- Every diagnostic, in order. -/
  diagnostics : List Diagnostic := []
  /-- Some stage changed the program. -/
  modified : Bool := false
  deriving DecidableEq, Inhabited

namespace Report

/-- The symbols that the diagnostics of one kind concern. -/
def symbols (r : Report) (kind : Diagnostic.Kind) : List String :=
  (r.diagnostics.filter (·.kind == kind)).map Diagnostic.symbol

/-- The number of changes to what the program means. -/
def unsoundCount (r : Report) : Nat := r.diagnostics.countP Diagnostic.isUnsound

end Report

end ClosedWorld

import ClosedWorld.Config
import ClosedWorld.WellFormed

/-!
# Errors

An error ends a run. It is kept as its cause; `Error.message` is the one place
that puts causes into words. Some errors mean that the program itself is broken
(`Error.isInternal`), the others that a precondition or the configuration is.
-/

namespace ClosedWorld

/-- Why a text does not describe a program. -/
inductive DecodeError where
  /-- It is not of the right form. Where and how is not kept. -/
  | malformed
  | duplicateFunction (name : String)
  | duplicateGlobal (name : String)
  deriving DecidableEq, Inhabited

/-- Why a run ends early. -/
inductive Error where
  | missingEntryPoint (name : String)
  /-- A call reaches a function whose name is empty. -/
  | unnamedCallee (caller : String)
  /-- A call reaches a function that the program lacks. -/
  | danglingSymbol (caller name : String)
  /-- A zero is needed of a type that has none. -/
  | noZeroValue (symbol : String) (ty : Ty)
  | duplicateSymbol (name : String)
  /-- There is an entry table, and the configuration rejects it. -/
  | entryTableExists (name : String)
  | malformedProgram (findings : List Finding)
  | parse (cause : DecodeError)
  | config (cause : ConfigError)
  deriving DecidableEq, Inhabited

/-- What follows the word for the kind of error. For a text of the wrong form that
would be the account of the reader that met it, which says what it expected and
at which line and column. That account is left out, and so are the line and
column that it adds to the name of a duplicate. -/
def DecodeError.detail : DecodeError → String
  | .malformed => ""
  | .duplicateFunction name => s!": duplicate function '{name}'"
  | .duplicateGlobal name => s!": duplicate global '{name}'"

/-- What follows the word for the kind of error. The account that the reader gives
of a text of the wrong form is left out here as well. -/
def ConfigError.detail : ConfigError → String
  | .undecodable => ""
  | .unknownStage name => s!": unknown stage '{name}'"
  | .repeatedStage stage => s!": stage '{stage.name}' listed twice"
  | .unnamedEntryFunction => ": entry_function must not be empty"
  | .unnamedEntryTable => ": entry_table must not be empty"

namespace Error

/-- The kind of an error. -/
def kind : Error → String
  | .missingEntryPoint _ => "MissingEntryPoint"
  | .unnamedCallee _ => "UnnamedCallee"
  | .danglingSymbol .. => "DanglingSymbol"
  | .noZeroValue .. => "NoZeroValue"
  | .duplicateSymbol _ => "DuplicateSymbol"
  | .entryTableExists _ => "EntryTableExists"
  | .malformedProgram _ => "MalformedModule"
  | .parse _ => "Parse"
  | .config _ => "Config"

/-- The sentence that reports an error. -/
def message : Error → String
  | .missingEntryPoint name => s!"Entry point '{name}' not found in module"
  | .unnamedCallee caller => s!"Call in '{caller}' resolves to an unnamed function"
  | .danglingSymbol caller name => s!"'{caller}' references unknown symbol '{name}'"
  | .noZeroValue symbol ty => s!"No zero value of type {ty.render} for '{symbol}'"
  | .duplicateSymbol name => s!"Duplicate symbol: {name}"
  | .entryTableExists name => s!"Entry table '{name}' already exists"
  | .malformedProgram findings =>
      "Malformed module: " ++ String.intercalate "; " (findings.map Finding.message)
  | .parse cause => "Parse error" ++ cause.detail
  | .config cause => "Config error" ++ cause.detail

/-- The program is broken, rather than a precondition or the configuration. -/
def isInternal : Error → Bool
  | .unnamedCallee _ | .danglingSymbol .. | .noZeroValue .. | .duplicateSymbol _
  | .malformedProgram _ => true
  | _ => false

end Error

end ClosedWorld

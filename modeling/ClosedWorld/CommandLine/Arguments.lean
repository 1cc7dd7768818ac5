import ClosedWorld.CommandLine.Invocation

/-!
# The reader of arguments

A session takes any reader of its arguments. The program comes with this one.

Arguments are read from left to right, and the first one that decides the
outcome does: a fault, or a request for the version or the help. An option that
takes a value takes the rest of its own argument, after an equals sign if there
is one, or else the next argument, unless that looks like an option itself.
After `--` every argument is positional, and there is one positional argument,
the program to prepare. Only the stage option may be given more than once.
-/

namespace ClosedWorld.CommandLine

/-- The form of a name. -/
def Emit.ofName? : String → Option Emit
  | "json" => some .json
  | "text" => some .text
  | _ => none

/-- Why the arguments ask for no session. -/
inductive Detour where
  /-- They are at fault. -/
  | misuse
  | help
  | version
  deriving DecidableEq, Inhabited

/-- A reminder of the options. -/
def usageText : String :=
  "Usage: symprep <INPUT> [-o FILE] [-c FILE] [-s STAGE]... [--emit json|text]\n"
    ++ "               [--reject-existing-table] [-v] [-h] [-V]\n"

/-- The name of the program with its version. -/
def versionText : String := "symprep 0.3.0\n"

/-- The answer where the arguments ask for no session. -/
def Detour.reply : Detour → Reply
  | .misuse => { exitCode := 2, remark := usageText }
  | .help => { exitCode := 0, stdout := usageText }
  | .version => { exitCode := 0, stdout := versionText }

/-- An option that takes a value. -/
inductive ValueOption where
  | output
  | config
  | stage
  | emit
  deriving DecidableEq, Inhabited

/-- The option of a long name. -/
def ValueOption.ofName? : String → Option ValueOption
  | "output" => some .output
  | "config" => some .config
  | "stage" => some .stage
  | "emit" => some .emit
  | _ => none

/-- The option of a letter. -/
def ValueOption.ofLetter? : Char → Option ValueOption
  | 'o' => some .output
  | 'c' => some .config
  | 's' => some .stage
  | _ => none

/-- An option that stands alone. -/
inductive Flag where
  | rejectTable
  | verbose
  | version
  | help
  deriving DecidableEq, Inhabited

/-- The flag of a long name. -/
def Flag.ofName? : String → Option Flag
  | "reject-existing-table" => some .rejectTable
  | "verbose" => some .verbose
  | "version" => some .version
  | "help" => some .help
  | _ => none

/-- The flag of a letter. -/
def Flag.ofLetter? : Char → Option Flag
  | 'v' => some .verbose
  | 'V' => some .version
  | 'h' => some .help
  | _ => none

/-- The arguments read so far. -/
structure Arguments where
  input : Option String := none
  output : Option String := none
  config : Option String := none
  stages : List Stage := []
  emit : Option Emit := none
  rejectTable : Bool := false
  verbose : Bool := false
  deriving DecidableEq, Inhabited

namespace Arguments

/-- Reads the positional argument, which is not empty and comes once. -/
def positional (a : Arguments) (value : String) : Except Detour Arguments :=
  if a.input.isSome ∨ value = "" then .error .misuse else .ok { a with input := some value }

/-- Reads an option with its value. -/
def option (a : Arguments) (o : ValueOption) (value : String) : Except Detour Arguments :=
  match o with
  | .output =>
      if a.output.isSome ∨ value = "" then .error .misuse else .ok { a with output := some value }
  | .config =>
      if a.config.isSome ∨ value = "" then .error .misuse else .ok { a with config := some value }
  | .stage =>
      match Stage.ofName? value with
      | some s => .ok { a with stages := a.stages ++ [s] }
      | none => .error .misuse
  | .emit =>
      match a.emit, Emit.ofName? value with
      | none, some e => .ok { a with emit := some e }
      | _, _ => .error .misuse

/-- Reads a flag. -/
def flag (a : Arguments) : Flag → Except Detour Arguments
  | .rejectTable => if a.rejectTable then .error .misuse else .ok { a with rejectTable := true }
  | .verbose => if a.verbose then .error .misuse else .ok { a with verbose := true }
  | .version => .error .version
  | .help => .error .help

/-- Reads the letters of an argument with one dash. What comes back besides is
an option that still wants its value. -/
def letters (a : Arguments) : List Char → Except Detour (Arguments × Option ValueOption)
  | [] => .ok (a, none)
  | c :: cs =>
      match Flag.ofLetter? c, ValueOption.ofLetter? c with
      | some f, _ =>
          match a.flag f with
          | .ok a => a.letters cs
          | .error r => .error r
      | none, some o =>
          match cs with
          | [] => .ok (a, some o)
          | '=' :: value => (a.option o (String.ofList value)).map (·, none)
          | value => (a.option o (String.ofList value)).map (·, none)
      | none, none => .error .misuse

/-- Reads an argument with two dashes: a name, perhaps with a value. -/
def long (a : Arguments) (name : List Char) : Except Detour (Arguments × Option ValueOption) :=
  let value := name.dropWhile (· ≠ '=')
  let name := String.ofList (name.takeWhile (· ≠ '='))
  match Flag.ofName? name, ValueOption.ofName? name, value with
  | some f, _, [] => (a.flag f).map (·, none)
  | _, some o, [] => .ok (a, some o)
  | _, some o, _ :: value => (a.option o (String.ofList value)).map (·, none)
  | _, _, _ => .error .misuse

/-- Reads one argument. -/
def argument (a : Arguments) (arg : String) : Except Detour (Arguments × Option ValueOption) :=
  match arg.toList with
  | '-' :: '-' :: name => a.long name
  | '-' :: c :: cs => a.letters (c :: cs)
  | _ => (a.positional arg).map (·, none)

/-- The argument can be the value of the option before it. -/
def isValue (arg : String) : Bool :=
  match arg.toList with
  | '-' :: _ :: _ => false
  | _ => true

/-- Reads a list of arguments. -/
def read (a : Arguments) : List String → Except Detour Arguments
  | [] => .ok a
  | "--" :: rest => rest.foldlM positional a
  | arg :: rest =>
      match a.argument arg, rest with
      | .error r, _ => .error r
      | .ok (a, none), rest => a.read rest
      | .ok (a, some o), value :: rest =>
          if isValue value then
            match a.option o value with
            | .ok a => a.read rest
            | .error r => .error r
          else .error .misuse
      | .ok (_, some _), [] => .error .misuse

/-- The invocation that a list of arguments comes to, or the answer where there
is none. -/
def parse (args : List String) : Except Reply Invocation :=
  match ({} : Arguments).read args with
  | .error detour => .error detour.reply
  | .ok a =>
      match a.input with
      | none => .error Detour.misuse.reply
      | some input =>
          .ok {
            input
            output := a.output
            config := a.config
            stages := a.stages
            emit := a.emit.getD .json
            rejectTable := a.rejectTable
            verbose := a.verbose }

end Arguments

end ClosedWorld.CommandLine

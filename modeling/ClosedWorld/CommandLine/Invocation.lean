import ClosedWorld.Config
import ClosedWorld.Event
import ClosedWorld.Program.Listing
import ClosedWorld.Text.Lines

/-!
# What a session is asked, and what it answers

The arguments of a session come to an `Invocation`: the program to prepare, and
the options. Its answer is a `Reply`. Programs go to the standard output, all
that is said about them to the error stream.

A failure is told as a chain: what was being done, and then what went wrong.
-/

namespace ClosedWorld.CommandLine

/-- The form in which the prepared program is written. -/
inductive Emit where
  /-- As data, which can be read back. -/
  | json
  /-- As a listing. -/
  | text
  deriving DecidableEq, Inhabited

/-- The arguments of a session. -/
structure Invocation where
  /-- The file that holds the program. -/
  input : String
  /-- The file for the prepared program; without one it is shown. -/
  output : Option String := none
  /-- The file that holds the configuration; without one it is the usual one. -/
  config : Option String := none
  /-- The stages to run instead of the configured ones; none stands for those. -/
  stages : List Stage := []
  emit : Emit := .json
  /-- A table from an earlier run is to be rejected, whatever the configuration. -/
  rejectTable : Bool := false
  verbose : Bool := false
  deriving DecidableEq, Inhabited

/-- What a session answers. -/
structure Reply where
  exitCode : Nat
  stdout : String := ""
  /-- A remark on the arguments. -/
  remark : String := ""
  /-- The events worth showing, in order. -/
  log : List Event := []
  /-- The failure and its causes, the outermost first. -/
  chain : List String := []
  deriving DecidableEq, Inhabited

namespace Reply

/-- The lines of the log. An entry with line breaks in it takes several. -/
def logLines (r : Reply) : List String := r.log.flatMap fun e => Text.lines (line e.entry)

/-- The lines of the failure and of its causes, the outermost first. -/
def chainLines (r : Reply) : List String :=
  r.chain.flatMap fun failure => Text.lines (line failure)

/-- What a session shows beside its answer: a remark on the arguments, the log,
and then the failure with its causes. -/
def stderr (r : Reply) : String :=
  r.remark ++ String.join (r.log.map fun e => line e.entry)
    ++ match r.chain with
      | [] => ""
      | [failure] => line ("Error: " ++ failure)
      | failure :: causes =>
          line ("Error: " ++ failure) ++ line "" ++ line "Caused by:"
            ++ String.join (causes.flatMap fun cause =>
              (Text.lines (line cause)).map fun part => line ("    " ++ part))

end Reply

end ClosedWorld.CommandLine

import ClosedWorld.Codec.Config
import ClosedWorld.Codec.Program
import ClosedWorld.CommandLine.Arguments
import ClosedWorld.CommandLine.FileTree
import ClosedWorld.Run

/-!
# A session on the command line

A session reads the configuration, then the program, runs the stages and writes
the result. Each of these steps can fail, and the first one that does ends the
session. Writing comes last, so a session that fails has written nothing.

How arguments are read and what the files are does not matter here. A session is
written for any reader of arguments and for any `Files`, and it runs wherever
these run.
-/

namespace ClosedWorld.CommandLine

namespace Invocation

variable {m : Type → Type} [Monad m] (i : Invocation) (files : Files m)

/-- The configuration with the options of the command line in its place where
they are given. -/
def override (c : Config) : Config :=
  { c with
    stages := if i.stages = [] then c.stages else i.stages
    tablePolicy := if i.rejectTable then .reject else c.tablePolicy }

/-- The configuration of a session: that of the file, or the usual one, as the
options change it. -/
def loadConfig : m (Except (List String) Config) :=
  match i.config with
  | none => return .ok (i.override {})
  | some file => do
      match ← files.read file with
      | .error fault => return .error ["reading config " ++ file, fault.message]
      | .ok text =>
          match Config.load text with
          | .error e => return .error [(Error.config e).message]
          | .ok c => return .ok (i.override c)

/-- The program of a session. -/
def loadProgram : m (Except (List String) Program) := do
  match ← files.read i.input with
  | .error fault => return .error ["reading module " ++ i.input, fault.message]
  | .ok text =>
      match Program.decode text with
      | .error e => return .error ["decoding module " ++ i.input, (Error.parse e).message]
      | .ok p => return .ok p

/-- The text of the prepared program. -/
def renderProgram (p : Program) : String :=
  match i.emit with
  | .json => p.encode
  | .text => p.listing

/-- The events that the session shows. -/
def visible (events : List Event) : List Event :=
  events.filter fun e => i.verbose || e.level ≠ .debug

/-- Hands over the text of the prepared program: to the file that is named, or
else to the standard output, with a line end behind it. -/
def deliver (log : List Event) (text : String) : m Reply :=
  match i.output with
  | none => return { exitCode := 0, log, stdout := text ++ "\n" }
  | some file => do
      match ← files.write file text with
      | .error fault =>
          return { exitCode := 1, log, chain := ["writing " ++ file, fault.message] }
      | .ok () => return { exitCode := 0, log }

/-- Answers for a run: its program is handed over if it has succeeded. -/
def finish (o : Outcome Report) : m Reply :=
  match o.result with
  | .error e =>
      return {
        exitCode := 1
        log := i.visible o.events
        chain := ["preparing " ++ i.input, e.message] }
  | .ok report =>
      i.deliver files (i.visible (o.events ++ [.finished report])) (i.renderProgram o.program)

/-- Carries out a session. -/
def answer : m Reply := do
  match ← i.loadConfig files with
  | .error chain => return { exitCode := 1, chain }
  | .ok c =>
      match ← i.loadProgram files with
      | .error chain => return { exitCode := 1, chain }
      | .ok p => i.finish files (c.run p)

end Invocation

/-- A whole session, from its arguments to its answer. -/
def session {m : Type → Type} [Monad m] (parse : List String → Except Reply Invocation)
    (files : Files m) (args : List String) : m Reply :=
  match parse args with
  | .error reply => return reply
  | .ok i => i.answer files

/-- Tries out a session on a tree of files. -/
def runIn (t : FileTree) (args : List String) : Reply × FileTree :=
  (session Arguments.parse FileTree.system args).run t

end ClosedWorld.CommandLine

import ClosedWorld.Diagnostic
import ClosedWorld.Error
import ClosedWorld.Text.Terminal

/-!
# What a run logs, and what it leaves behind

A run tells what it does in events, in order. Most are diagnostics, and the
report collects those; the others explain a step to someone who reads the log
closely.

An `Outcome` is the whole effect of a step: the program as it is afterwards, the
events, and a result or an error. The program is there even when the step fails,
because what earlier steps did to it stays done. `Outcome.andThen` runs one step
after another and stops at the first error.
-/

namespace ClosedWorld

/-- How much an event matters to a reader of the log. -/
inductive Level where
  | debug
  | info
  | warn
  deriving DecidableEq, Inhabited

/-- The name of a level. -/
def Level.name : Level → String
  | .debug => "DEBUG"
  | .info => "INFO"
  | .warn => "WARN"

/-- The blanks that bring the name of a level to the width of the longest. -/
def Level.padding : Level → String
  | .debug => ""
  | .info | .warn => " "

/-- One entry of the log. -/
inductive Event where
  | diagnostic (d : Diagnostic)
  /-- The uses of a removed call's result are now a zero. -/
  | replacedUses (count : Nat) (r : Reg) (caller : String) (zero : Constant)
  /-- A generator without a body yields any value of its type. -/
  | yieldsAny (name canonical : String) (ty : Ty)
  /-- A control primitive without a body is the verifier's to run. -/
  | leftToVerifier (name : String)
  | stageFinished (stage : Stage) (diagnostics : Nat) (modified : Bool)
  /-- The run is over. -/
  | finished (report : Report)
  deriving DecidableEq, Inhabited

namespace Event

/-- The diagnostic that an event is. -/
def diagnostic? : Event → Option Diagnostic
  | .diagnostic d => some d
  | _ => none

/-- Diagnostics are for every reader, the unsound ones as warnings. -/
def level : Event → Level
  | .diagnostic d => if d.isUnsound then .warn else .info
  | .finished _ => .info
  | _ => .debug

/-- The component that the log names with an event. -/
def component : Event → String
  | .diagnostic _ => "symprep::diagnostics"
  | .replacedUses .. => "symprep::passes::undefined"
  | .yieldsAny .. | .leftToVerifier _ => "symprep::passes::entry"
  | .stageFinished .. => "symprep::pipeline"
  | .finished _ => "symprep"

/-- The sentence that the log records. -/
def message : Event → String
  | .diagnostic d => d.message
  | .replacedUses count r caller zero =>
      s!"replaced {count} use(s) of {r.render} in '{caller}' with {zero.render}"
  | .yieldsAny name canonical ty =>
      s!"'{name}' ({canonical}) now yields an unconstrained {ty.render}"
  | .leftToVerifier name => s!"'{name}' left to the verifier runtime"
  | .stageFinished stage diagnostics modified =>
      s!"stage {stage.name} finished: {diagnostics} diagnostic(s), modified={modified}"
  | .finished report =>
      s!"{report.diagnostics.length} diagnostic(s), {report.unsoundCount} unsound action(s), "
        ++ s!"modified={report.modified}"

/-- The entry of the log, aligned and fit to be read on a terminal. -/
def entry (e : Event) : String :=
  s!"{e.level.padding}{e.level.name} {e.component}: {Terminal.safe e.message}"

end Event

/-- The effect of a step on a program. -/
structure Outcome (α : Type) where
  /-- The program as the step leaves it, also when it fails. -/
  program : Program
  events : List Event := []
  result : Except Error α

namespace Outcome

variable {α β γ : Type}

/-- The diagnostics among the events. -/
def diagnostics (o : Outcome α) : List Diagnostic := o.events.filterMap Event.diagnostic?

/-- A check that changes nothing. -/
def check (p : Program) (result : Except Error α) : Outcome α := { program := p, result }

/-- Runs a second step on what the first one leaves, unless that failed. -/
def andThen (o : Outcome α) (next : Program → α → Outcome β) : Outcome β :=
  match o.result with
  | .ok a =>
      let o' := next o.program a
      { o' with events := o.events ++ o'.events }
  | .error e => { o with result := .error e }

@[simp] theorem check_program (p : Program) (result : Except Error α) :
    (check p result).program = p := rfl

@[simp] theorem check_result (p : Program) (result : Except Error α) :
    (check p result).result = result := rfl

theorem program_andThen {o : Outcome α} {a : α} (h : o.result = .ok a)
    (next : Program → α → Outcome β) : (o.andThen next).program = (next o.program a).program := by
  rw [andThen, h]

theorem result_andThen {o : Outcome α} {a : α} (h : o.result = .ok a)
    (next : Program → α → Outcome β) : (o.andThen next).result = (next o.program a).result := by
  rw [andThen, h]

theorem program_andThen_error {o : Outcome α} {e : Error} (h : o.result = .error e)
    (next : Program → α → Outcome β) : (o.andThen next).program = o.program := by
  rw [andThen, h]

theorem result_andThen_error {o : Outcome α} {e : Error} (h : o.result = .error e)
    (next : Program → α → Outcome β) : (o.andThen next).result = .error e := by
  rw [andThen, h]

theorem andThen_assoc (o : Outcome α) (f : Program → α → Outcome β) (g : Program → β → Outcome γ) :
    (o.andThen f).andThen g = o.andThen fun p a => (f p a).andThen g := by
  cases ho : o.result with
  | error e => simp only [andThen, ho]
  | ok a =>
      cases hf : (f o.program a).result with
      | error e => simp only [andThen, ho, hf]
      | ok b => simp only [andThen, ho, hf, List.append_assoc]

theorem ok_andThen (p : Program) (a : α) (next : Program → α → Outcome β) :
    ({ program := p, result := .ok a } : Outcome α).andThen next = next p a := rfl

theorem andThen_ok (o : Outcome α) :
    (o.andThen fun p a => { program := p, result := .ok a }) = o := by
  cases o with
  | mk program events result =>
      cases result with
      | ok a => simp only [andThen, List.append_nil]
      | error e => rfl

/-- Adds an event at the end of a step that succeeded. -/
def noting (o : Outcome α) (event : α → Event) : Outcome α :=
  o.andThen fun p a => { program := p, events := [event a], result := .ok a }

end Outcome

end ClosedWorld

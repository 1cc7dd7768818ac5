import ClosedWorld.Stage.Entry
import ClosedWorld.Stage.UndefinedCalls
import ClosedWorld.Stage.UnsupportedCalls

/-!
# A run

A run checks the configuration, the program and what the prepare stage will
need, then carries out the configured stages in order, then checks the program
again. All checks that can be made before the first stage are made there, so
that what fails early leaves the program as it was.
-/

namespace ClosedWorld.Config

/-- Carries out one stage; the result tells whether it changed the program. -/
def runStage (c : Config) (p : Program) : Stage → Outcome Bool
  | .checkUnsupported => p.checkUnsupported c
  | .deleteUndefined => p.deleteUndefined c
  | .prepare => p.prepareEntry c

/-- Carries out one stage and notes in the log that it is done. -/
def runNoted (c : Config) (p : Program) (s : Stage) : Outcome Bool :=
  let o := c.runStage p s
  o.noting fun changed => .stageFinished s o.diagnostics.length changed

/-- Carries out stages one after another; the result tells whether any of them
changed the program. -/
def runStages (c : Config) (p : Program) : List Stage → Outcome Bool
  | [] => { program := p, result := .ok false }
  | s :: ss =>
      (c.runNoted p s).andThen fun p first =>
        (c.runStages p ss).andThen fun p rest => { program := p, result := .ok (first || rest) }

/-- Everything that is checked before the first stage. -/
def preconditions (c : Config) (p : Program) : Except Error Unit := do
  c.check.mapError .config
  if c.verifyInput then
    p.verify
  if c.runs .prepare then
    let _ ← p.entryPlan c

/-- The whole run. -/
def run (c : Config) (p : Program) : Outcome Report :=
  let o :=
    (Outcome.check p (c.preconditions p)).andThen fun p _ =>
      (c.runStages p c.stages).andThen fun p changed =>
        Outcome.check p ((if c.verifyOutput then p.verify else .ok ()).map fun _ => changed)
  { o with result := o.result.map fun changed =>
      { diagnostics := o.diagnostics, modified := changed } }

end ClosedWorld.Config

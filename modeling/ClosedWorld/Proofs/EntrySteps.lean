import ClosedWorld.Proofs.Reports

/-!
# The steps of preparation in any order

Preparation strips, then zeroes, then publishes the table, and it could as well do
it the other way round (`Program.prepareEntry_any_order`). What each step does and
reports is the same, whichever of the others have been done before.

Two of them touch the globals, and there it takes an argument. If the table is
published first, the zeroing walks over it too, and leaves it alone because a table
has its value from the start. If the zeros come first, the name of the table is
still free, since zeroing renames nothing. Either way the table ends up last.
-/

namespace ClosedWorld

/-- A step of preparation. -/
inductive EntryStep where
  /-- Drop the bodies of oracles. -/
  | strip
  /-- Give the globals their zeros. -/
  | zero
  /-- Publish the entry table. -/
  | publish
  deriving DecidableEq

/-- The steps in their usual order. -/
def EntryStep.all : List EntryStep := [.strip, .zero, .publish]

theorem EntryPlan.needsZero_of_mem_tables {plan : EntryPlan} {c : Config} {g : Global}
    (h : g ∈ plan.tables c) : g.needsZero = false := by
  cases plan with
  | create => rw [List.mem_singleton.mp h]; rfl
  | keep => cases h

theorem EntryPlan.map_zeroed_tables (plan : EntryPlan) (c : Config) :
    (plan.tables c).map Global.zeroed = plan.tables c := by
  cases plan <;> rfl

namespace Program

/-- Carries out one step, under a plan that has been made beforehand. -/
def entryStep (p : Program) (c : Config) (plan : EntryPlan) : EntryStep → Outcome Unit
  | .strip => (p.stripBodies c.stripped).andThen fun p _ => { program := p, result := .ok () }
  | .zero => p.zeroGlobals.andThen fun p _ => { program := p, result := .ok () }
  | .publish => p.publishEntryTable c plan

/-- Carries out steps one after another. -/
def entrySteps (p : Program) (c : Config) (plan : EntryPlan) : List EntryStep → Outcome Unit
  | [] => { program := p, result := .ok () }
  | s :: ss => (p.entryStep c plan s).andThen fun p _ => p.entrySteps c plan ss

/-- Preparation is its check and then its steps. -/
theorem prepareEntry_eq_entrySteps (p : Program) (c : Config) :
    p.prepareEntry c =
      (Outcome.check p (p.entryPlan c)).andThen fun p plan =>
        (p.entrySteps c plan EntryStep.all).andThen fun p _ =>
          { program := p, result := .ok true } := by
  simp only [prepareEntry, EntryStep.all, entrySteps, entryStep, Outcome.andThen_assoc,
    Outcome.ok_andThen]

/-- The program with some of the steps done, whatever the order. -/
def entered (p : Program) (c : Config) (plan : EntryPlan) (done : List EntryStep) : Program :=
  { p with
    functions :=
      if .strip ∈ done then p.functions.map (Func.strippedIn c.stripped) else p.functions
    globals :=
      (if .zero ∈ done then p.globals.map Global.zeroed else p.globals) ++
        if .publish ∈ done then plan.tables c else [] }

/-- What a step reports. -/
def entryReports (p : Program) (c : Config) (plan : EntryPlan) : EntryStep → List Diagnostic
  | .strip => (p.stripBodies c.stripped).diagnostics
  | .zero => (p.globals.filter Global.needsZero).map fun g => .initialized g.name
  | .publish => [plan.report c]

/-- With some of the steps done, one more goes through. It is then done with the
others, and it reports what it would have reported without them. -/
structure EntersBy (p : Program) (c : Config) (plan : EntryPlan) (done : List EntryStep)
    (s : EntryStep) : Prop where
  result : ((p.entered c plan done).entryStep c plan s).result = .ok ()
  program : ((p.entered c plan done).entryStep c plan s).program = p.entered c plan (s :: done)
  reports : ((p.entered c plan done).entryStep c plan s).diagnostics = p.entryReports c plan s

section Steps

variable {p : Program} {c : Config} {plan : EntryPlan} {done : List EntryStep}

theorem entered_nil : p.entered c plan [] = p := by
  simp only [entered, List.not_mem_nil, if_false, List.append_nil]

theorem entered_congr {done' : List EntryStep} (h : ∀ s, s ∈ done ↔ s ∈ done') :
    p.entered c plan done = p.entered c plan done' := by
  simp only [entered, h]

/-! ## One step -/

theorem strip_entered (hnew : .strip ∉ done) : p.EntersBy c plan done .strip := by
  obtain ⟨b, hb, hprogram⟩ := (p.entered c plan done).stripBodies_ok c.stripped
  have hfunctions : (p.entered c plan done).functions = p.functions := if_neg hnew
  refine ⟨Outcome.result_andThen hb _, ?_, ?_⟩
  · rw [entryStep, Outcome.program_andThen hb, hprogram, hfunctions]
    simp [entered]
  · have hlookup : (p.entered c plan done).function? = p.function? := by
      funext name
      rw [function?, function?, hfunctions]
    rw [entryStep, Outcome.diagnostics_andThen hb, stripBodies_diagnostics_congr hlookup]
    exact List.append_nil _

theorem zero_entered (hplan : p.entryPlan c = .ok plan) (hnew : .zero ∉ done) :
    p.EntersBy c plan done .zero := by
  obtain ⟨-, hzeros, -, -⟩ := entryPlan_eq_ok hplan
  -- The table may be there already, and then it has its value.
  have hglobals : (p.entered c plan done).globals =
      p.globals ++ if .publish ∈ done then plan.tables c else [] := by
    rw [entered, if_neg hnew]
  have htables : ∀ g ∈ (if .publish ∈ done then plan.tables c else []), g.needsZero = false := by
    intro g hg
    split at hg
    · exact EntryPlan.needsZero_of_mem_tables hg
    · cases hg
  have hall : ∀ g ∈ (p.entered c plan done).globals, g.needsZero = true →
      ∃ zero, Constant.zeroOf? g.ty = some zero := by
    intro g hg hneeds
    rw [hglobals] at hg
    rcases List.mem_append.mp hg with hg | hg
    · exact hzeros g hg hneeds
    · rw [htables g hg] at hneeds
      cases hneeds
  obtain ⟨b, hb, hprogram⟩ := zeroGlobals_ok hall
  refine ⟨Outcome.result_andThen hb _, ?_, ?_⟩
  · rw [entryStep, Outcome.program_andThen hb, hprogram, hglobals, List.map_append]
    simp [entered, apply_ite (List.map Global.zeroed), EntryPlan.map_zeroed_tables]
  · have hnone := List.filter_eq_nil_iff.mpr fun g hg => Bool.eq_false_iff.mp (htables g hg)
    rw [entryStep, Outcome.diagnostics_andThen hb, zeroGlobals_diagnostics hall, hglobals,
      List.filter_append, hnone, List.append_nil]
    exact List.append_nil _

/-- No step takes a name away or, before the table is there, brings one in. -/
theorem hasName_entered (hnew : .publish ∉ done) (name : String) :
    (p.entered c plan done).hasName name = p.hasName name := by
  refine hasName_congr ?_ ?_ name
  · simp only [entered]
    split <;> simp only [List.map_map, Function.comp_def, Func.strippedIn_name]
  · simp only [entered, if_neg hnew, List.append_nil]
    split <;> simp only [List.map_map, Function.comp_def, Global.zeroed_name]

theorem publish_entered (hplan : p.entryPlan c = .ok plan) (hnew : .publish ∉ done) :
    p.EntersBy c plan done .publish := by
  have hfree : plan = .create → (p.entered c plan done).hasName c.entryTable = false := by
    rintro rfl
    rw [hasName_entered hnew, hasName_entryTable hplan]
  obtain ⟨hok, hprogram⟩ := publishEntryTable_ok hfree
  refine ⟨hok, ?_, publishEntryTable_diagnostics hok⟩
  rw [entryStep, hprogram]
  simp [entered, hnew]

theorem entryStep_entered (hplan : p.entryPlan c = .ok plan) {s : EntryStep} (hnew : s ∉ done) :
    p.EntersBy c plan done s := by
  cases s with
  | strip => exact strip_entered hnew
  | zero => exact zero_entered hplan hnew
  | publish => exact publish_entered hplan hnew

/-! ## Several steps -/

theorem entrySteps_entered (hplan : p.entryPlan c = .ok plan) {steps : List EntryStep}
    (honce : steps.Nodup) (hnew : ∀ s ∈ steps, s ∉ done) :
    ((p.entered c plan done).entrySteps c plan steps).result = .ok () ∧
      ((p.entered c plan done).entrySteps c plan steps).program =
        p.entered c plan (steps.reverse ++ done) ∧
      ((p.entered c plan done).entrySteps c plan steps).diagnostics =
        steps.flatMap (p.entryReports c plan) := by
  induction steps generalizing done with
  | nil => exact ⟨rfl, rfl, rfl⟩
  | cons s steps ih =>
      obtain ⟨hs, honce⟩ := List.nodup_cons.mp honce
      obtain ⟨hok, hprogram, hreports⟩ := entryStep_entered hplan (hnew s List.mem_cons_self)
      have hnew' : ∀ s' ∈ steps, s' ∉ s :: done := by
        intro s' hs' hmem
        rcases List.mem_cons.mp hmem with rfl | hmem
        · exact hs hs'
        · exact hnew s' (List.mem_cons_of_mem s hs') hmem
      obtain ⟨hok', hprogram', hreports'⟩ := ih honce hnew'
      rw [entrySteps, Outcome.result_andThen hok, Outcome.program_andThen hok,
        Outcome.diagnostics_andThen hok, hprogram, hreports, hreports', List.flatMap_cons,
        List.reverse_cons, List.append_assoc]
      exact ⟨hok', hprogram', rfl⟩

theorem entrySteps_of_perm (hplan : p.entryPlan c = .ok plan) {steps : List EntryStep}
    (hsteps : steps.Perm EntryStep.all) :
    (p.entrySteps c plan steps).result = .ok () ∧
      (p.entrySteps c plan steps).program = p.entered c plan EntryStep.all ∧
      (p.entrySteps c plan steps).diagnostics.Perm
        (EntryStep.all.flatMap (p.entryReports c plan)) := by
  have honce : steps.Nodup := hsteps.nodup_iff.mpr (by decide)
  have hnew : ∀ s ∈ steps, s ∉ ([] : List EntryStep) := fun _ _ => List.not_mem_nil
  obtain ⟨hok, hprogram, hreports⟩ := entrySteps_entered hplan honce hnew
  rw [entered_nil] at hok hprogram hreports
  refine ⟨hok, ?_, ?_⟩
  · rw [hprogram]
    refine entered_congr fun s => ?_
    rw [List.append_nil, List.mem_reverse, hsteps.mem_iff]
  · rw [hreports]
    exact hsteps.flatMap_right _

/-- **The steps of preparation can be taken in any order.** Once the check has
passed, all of them go through, they leave the program that preparation leaves, and
they report what it reports, in some order. -/
theorem prepareEntry_any_order (hplan : p.entryPlan c = .ok plan) {steps : List EntryStep}
    (hsteps : steps.Perm EntryStep.all) :
    (p.entrySteps c plan steps).result = .ok () ∧
      (p.entrySteps c plan steps).program = (p.prepareEntry c).program ∧
      (p.entrySteps c plan steps).diagnostics.Perm (p.prepareEntry c).diagnostics := by
  obtain ⟨hok, hprogram, hreports⟩ := entrySteps_of_perm hplan hsteps
  obtain ⟨hok', hprogram', hreports'⟩ := entrySteps_of_perm hplan (.refl EntryStep.all)
  have hcheck : (Outcome.check p (p.entryPlan c)).result = .ok plan := hplan
  have husual : (p.prepareEntry c).program = (p.entrySteps c plan EntryStep.all).program ∧
      (p.prepareEntry c).diagnostics = (p.entrySteps c plan EntryStep.all).diagnostics := by
    rw [prepareEntry_eq_entrySteps, Outcome.program_andThen hcheck,
      Outcome.diagnostics_andThen hcheck, Outcome.check_program, Outcome.program_andThen hok',
      Outcome.diagnostics_andThen hok']
    exact ⟨rfl, List.append_nil _⟩
  refine ⟨hok, ?_, ?_⟩
  · rw [husual.1, hprogram, hprogram']
  · rw [husual.2]
    exact hreports.trans hreports'.symm

end Steps

/-- A program with a function to strip, a global that lacks a zero and no table. -/
def unlocking : Program where
  functions := [
    { name := "kzalloc", ret := .bytePtr, linkage := .internal, body := some [
      { label := "entry", instrs := [.ret (some (.const (.null .bytePtr)))] }] },
    { name := "main", ret := .void }]
  globals := [{ name := "lamp", ty := .int 32 }]

theorem prepareEntry_any_order_unlocking :
    let c : Config := {}
    let steps : List EntryStep := [.publish, .zero, .strip]
    unlocking.entryPlan c = .ok .create ∧ steps.Perm EntryStep.all ∧
      (unlocking.entrySteps c .create steps).result = .ok () ∧
      (unlocking.entrySteps c .create steps).program = (unlocking.prepareEntry c).program ∧
      (unlocking.entrySteps c .create steps).program.globals =
        [{ name := "lamp", ty := .int 32, initial := some (.int 32 0) }, c.entryTableGlobal] ∧
      (unlocking.entrySteps c .create steps).diagnostics =
        (unlocking.prepareEntry c).diagnostics.reverse ∧
      (unlocking.entrySteps c .create steps).diagnostics.Perm
        (unlocking.prepareEntry c).diagnostics := by
  intro c steps
  have hplan : unlocking.entryPlan c = .ok .create := rfl
  have hsteps : steps.Perm EntryStep.all := by decide
  obtain ⟨hok, hprogram, hreports⟩ := prepareEntry_any_order hplan hsteps
  refine ⟨hplan, hsteps, hok, hprogram, ?_, by decide +kernel, hreports⟩
  rw [hprogram]
  decide +kernel

end Program

end ClosedWorld

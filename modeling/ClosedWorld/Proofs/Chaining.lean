import ClosedWorld.Proofs.Reports

/-!
# Runs in a chain

The stages of a run can be spread over several runs, each of which takes what
the one before has left. `Config.run_eq_chain` says that nothing is gained or
lost by it: the chain goes through if the single run does, leaves the same
program, and its reports, put together, are the report of the single run.

What is different is the checking. A single run checks its input once, and it
looks at the entry before the first stage, in whatever place preparation stands.
A chain does this again at every joint, on a program that has changed by then.
The check of the input passes there because stages keep a program well formed.
The check of the entry is put off until the run that prepares it, and comes to
the same, because none of the stages ahead is a preparation and no other stage
changes what the check looks at.
-/

namespace ClosedWorld.Config

variable {c : Config} {p : Program} {ss ss' : List Stage}

/-- The configuration with other stages. -/
def withStages (c : Config) (ss : List Stage) : Config := { c with stages := ss }

theorem runStage_withStages (c : Config) (ss : List Stage) (p : Program) (s : Stage) :
    (c.withStages ss).runStage p s = c.runStage p s := by
  cases s <;> rfl

/-- A stage does not look at the list that it stands in. -/
theorem runStages_withStages (c : Config) (ss : List Stage) (p : Program) (ss' : List Stage) :
    (c.withStages ss).runStages p ss' = c.runStages p ss' := by
  induction ss' generalizing p with
  | nil => rfl
  | cons s ss' ih =>
      rw [runStages, runStages, runNoted, runNoted, runStage_withStages]
      simp only [ih]

/-! ## The check of the entry -/

theorem entryPlan_runStages (hno : .prepare ∉ ss) :
    (c.runStages p ss).program.entryPlan c = p.entryPlan c := by
  refine runStages_preserves (P := fun q => q.entryPlan c = p.entryPlan c) (fun s hs q hq => ?_) rfl
  obtain hprogram | ⟨-, hprogram⟩ | ⟨rfl, -⟩ := c.runStage_program_cases q s
  · rw [hprogram]
    exact hq
  · rw [hprogram, Program.entryPlan_eliminate]
    exact hq
  · exact absurd hs hno

/-- Of two portions at most one prepares the entry, so checking the entry where
that one begins is as good as checking it at once. -/
theorem entry_append_iff (honce : (ss ++ ss').Nodup) :
    (.prepare ∈ ss ++ ss' → ∃ plan, p.entryPlan c = .ok plan) ↔
      (.prepare ∈ ss → ∃ plan, p.entryPlan c = .ok plan) ∧
        (.prepare ∈ ss' → ∃ plan, (c.runStages p ss).program.entryPlan c = .ok plan) := by
  have hlater : .prepare ∈ ss' → (c.runStages p ss).program.entryPlan c = p.entryPlan c := by
    intro hmem'
    refine entryPlan_runStages fun hmem => ?_
    exact (List.nodup_append.mp honce).2.2 _ hmem _ hmem' rfl
  constructor
  · intro h
    refine ⟨fun hmem => h (List.mem_append_left _ hmem), fun hmem' => ?_⟩
    rw [hlater hmem']
    exact h (List.mem_append_right _ hmem')
  · intro ⟨h, h'⟩ hmem
    rcases List.mem_append.mp hmem with hmem | hmem'
    · exact h hmem
    · rw [← hlater hmem']
      exact h' hmem'

/-! ## Portions of a run -/

/-- On a well-formed program a portion of the stages goes through as a run if it
does as a list of stages and the check of the entry passes. -/
theorem run_withStages_eq_ok (hp : p.WellFormed) (hcheck : c.check = .ok ())
    (hsub : ss.Sublist c.stages) {report : Report} :
    ((c.withStages ss).run p).result = .ok report ↔
      (.prepare ∈ ss → ∃ plan, p.entryPlan c = .ok plan) ∧
        ∃ b, (c.runStages p ss).result = .ok b ∧
          report = { diagnostics := (c.runStages p ss).diagnostics, modified := b } := by
  obtain ⟨honce, hnames⟩ := check_eq_ok hcheck
  have hcheck' : (c.withStages ss).check = .ok () :=
    check_of_nodup (honce.sublist hsub) fun hmem => hnames (hsub.subset hmem)
  rw [run_eq_ok_iff, runStages_withStages]
  constructor
  · intro ⟨hpre, b, hs, _, hreport⟩
    exact ⟨(preconditions_eq_ok hpre).2.2, b, hs, hreport⟩
  · intro ⟨hplan, b, hs, hreport⟩
    have hready : c.Ready ss p :=
      ⟨hp, honce.sublist hsub, fun hmem => ⟨(hnames (hsub.subset hmem)).2, hplan hmem⟩⟩
    have hpre : (c.withStages ss).preconditions p = .ok () :=
      preconditions_of_ok hcheck' (fun _ => Program.verify_eq_ok_iff.mpr hp) hplan
    have hout : (c.runStages p ss).program.verify = .ok () :=
      Program.verify_eq_ok_iff.mpr hready.runStages_wellFormed
    exact ⟨hpre, b, hs, fun _ => hout, hreport⟩

theorem run_withStages_program {report : Report}
    (h : ((c.withStages ss).run p).result = .ok report) :
    ((c.withStages ss).run p).program = (c.runStages p ss).program := by
  obtain ⟨-, -, -, hprogram⟩ := run_eq_ok h
  rw [hprogram, runStages_withStages]
  rfl

/-- The two runs of a chain, on a program that is well formed. -/
theorem run_append_eq_ok (hp : p.WellFormed) (hcheck : c.check = .ok ())
    (hstages : c.stages = ss ++ ss') {report : Report} :
    (c.run p).result = .ok report ↔
      ∃ r r', ((c.withStages ss).run p).result = .ok r ∧
        ((c.withStages ss').run ((c.withStages ss).run p).program).result = .ok r' ∧
        report = { diagnostics := r.diagnostics ++ r'.diagnostics
                   modified := r.modified || r'.modified } := by
  have hsub : ss.Sublist c.stages := hstages ▸ List.sublist_append_left ss ss'
  have hsub' : ss'.Sublist c.stages := hstages ▸ List.sublist_append_right ss ss'
  have honce : (ss ++ ss').Nodup := hstages ▸ (check_eq_ok hcheck).1
  have hall : (c.run p).result = .ok report ↔
      (.prepare ∈ ss ++ ss' → ∃ plan, p.entryPlan c = .ok plan) ∧
        ∃ b, (c.runStages p (ss ++ ss')).result = .ok b ∧
          report = { diagnostics := (c.runStages p (ss ++ ss')).diagnostics, modified := b } := by
    rw [← hstages]
    exact run_withStages_eq_ok hp hcheck (List.Sublist.refl c.stages)
  have hwf : ((c.withStages ss).run p).program.WellFormed := run_program_wellFormed hp
  rw [hall, entry_append_iff honce]
  constructor
  · rintro ⟨⟨hplan, hplan'⟩, b, hs, rfl⟩
    obtain ⟨b₁, b₂, h₁, h₂, rfl⟩ := runStages_append_eq_ok.mp hs
    have hfirst := (run_withStages_eq_ok hp hcheck hsub).mpr ⟨hplan, b₁, h₁, rfl⟩
    rw [run_withStages_program hfirst] at hwf ⊢
    have hrest := (run_withStages_eq_ok hwf hcheck hsub').mpr ⟨hplan', b₂, h₂, rfl⟩
    refine ⟨_, _, hfirst, hrest, ?_⟩
    rw [(runStages_append_of_ok h₁ h₂).2]
  · rintro ⟨r, r', hfirst, hrest, rfl⟩
    rw [run_withStages_program hfirst] at hwf hrest
    obtain ⟨hplan, b₁, h₁, rfl⟩ := (run_withStages_eq_ok hp hcheck hsub).mp hfirst
    obtain ⟨hplan', b₂, h₂, rfl⟩ := (run_withStages_eq_ok hwf hcheck hsub').mp hrest
    rw [(runStages_append_of_ok h₁ h₂).2]
    exact ⟨⟨hplan, hplan'⟩, _, runStages_append_eq_ok.mpr ⟨b₁, b₂, h₁, h₂, rfl⟩, rfl⟩

theorem run_append_program (hstages : c.stages = ss ++ ss') {report r r' : Report}
    (h : (c.run p).result = .ok report) (hfirst : ((c.withStages ss).run p).result = .ok r)
    (hrest : ((c.withStages ss').run ((c.withStages ss).run p).program).result = .ok r') :
    ((c.withStages ss').run ((c.withStages ss).run p).program).program = (c.run p).program := by
  obtain ⟨-, b, hs, hprogram⟩ := run_eq_ok h
  rw [hstages] at hs hprogram
  obtain ⟨b₁, b₂, h₁, h₂, -⟩ := runStages_append_eq_ok.mp hs
  rw [run_withStages_program hrest, run_withStages_program hfirst, hprogram,
    (runStages_append_of_ok h₁ h₂).1]

/-- **A run is a chain of runs.** However the stages are divided in two, the run
goes through exactly if one run with the first portion does, and then one with
the second portion on what that has left. It reports what these report, one after
the other, and leaves what the second one leaves. -/
theorem run_eq_chain (hcheck : c.check = .ok ()) (hin : c.verifyInput = true)
    (hstages : c.stages = ss ++ ss') :
    let first := (c.withStages ss).run p
    let rest := (c.withStages ss').run first.program
    (∀ report, (c.run p).result = .ok report ↔
      ∃ r r', first.result = .ok r ∧ rest.result = .ok r' ∧
        report = { diagnostics := r.diagnostics ++ r'.diagnostics
                   modified := r.modified || r'.modified }) ∧
      ∀ report, (c.run p).result = .ok report → rest.program = (c.run p).program := by
  intro first rest
  have hwf : ∀ (ss : List Stage) {r : Report},
      ((c.withStages ss).run p).result = .ok r → p.WellFormed := by
    intro ss r h
    exact wellFormed_of_preconditions (c := c.withStages ss) hin (run_eq_ok h).1
  refine ⟨fun report => ⟨fun h => ?_, fun ⟨r, r', h, hrest⟩ => ?_⟩, fun report h => ?_⟩
  · exact (run_append_eq_ok (hwf c.stages h) hcheck hstages).mp h
  · exact (run_append_eq_ok (hwf ss h) hcheck hstages).mpr ⟨r, r', h, hrest⟩
  · obtain ⟨r, r', hfirst, hrest, -⟩ :=
      (run_append_eq_ok (hwf c.stages h) hcheck hstages).mp h
    exact run_append_program hstages h hfirst hrest

/-- A program that starts a thread, calls a function which nobody defines, and
has a global without a value. -/
def booting : Program where
  functions := [
    { name := "log", ret := .void },
    { name := "pthread_create", ret := .int 32 },
    { name := "main", ret := .int 32, body := some [
      { label := "entry", instrs := [
        .call ⟨some ⟨0⟩, .int 32, .func "pthread_create", []⟩,
        .call ⟨none, .void, .func "log", [.reg ⟨0⟩]⟩,
        .ret (some (.reg ⟨0⟩))] }] }]
  globals := [{ name := "state", ty := .int 64 }]

theorem run_eq_chain_booting :
    let c : Config := {}
    let first := (c.withStages [.checkUnsupported, .deleteUndefined]).run booting
    let rest := (c.withStages [.prepare]).run first.program
    c.check = .ok () ∧ c.verifyInput = true ∧
      c.stages = [.checkUnsupported, .deleteUndefined] ++ [.prepare] ∧
      ∃ r r', first.result = .ok r ∧ rest.result = .ok r' ∧
        r.diagnostics.map Diagnostic.kind = [.unsupportedCall, .removedCall, .removedCall] ∧
        r'.diagnostics.map Diagnostic.kind = [.initializedGlobal, .entryTableCreated] ∧
        (c.run booting).result =
          .ok { diagnostics := r.diagnostics ++ r'.diagnostics, modified := true } ∧
        rest.program = (c.run booting).program := by
  intro c first rest
  have hcheck : c.check = .ok () := rfl
  have hstages : c.stages = [.checkUnsupported, .deleteUndefined] ++ [.prepare] := rfl
  have hok : (c.run booting).result.isOk = true := by decide +kernel
  have hkinds : first.result.toOption.map (·.diagnostics.map Diagnostic.kind) =
        some [.unsupportedCall, .removedCall, .removedCall] ∧
      rest.result.toOption.map (·.diagnostics.map Diagnostic.kind) =
        some [.initializedGlobal, .entryTableCreated] ∧
      rest.result.toOption.map Report.modified = some true := by decide +kernel
  obtain ⟨report, h⟩ := exists_of_isOk hok
  obtain ⟨hchain, hprogram⟩ := run_eq_chain (p := booting) hcheck rfl hstages
  obtain ⟨r, r', hfirst, hrest, rfl⟩ := (hchain report).mp h
  rw [hfirst, hrest] at hkinds
  obtain ⟨hkinds, hkinds', hmodified⟩ := hkinds
  have hmodified : r'.modified = true := Option.some.inj hmodified
  refine ⟨hcheck, rfl, hstages, r, r', hfirst, hrest, Option.some.inj hkinds, Option.some.inj hkinds',
    ?_, hprogram _ h⟩
  rw [h, hmodified, Bool.or_true]

end ClosedWorld.Config

import ClosedWorld.Proofs.Reports
import Mathlib.Data.List.Nodup

/-!
# Lists of names as sets

The functions that a configuration names, the unsupported ones, the trusted and
the stripped, are written as lists. Two of the lists are only ever asked whether
they have a name. The third is walked over, and with every name on it the program
changes, so there one has to see that neither the order of the names nor a
repetition shows. It does not show in the program, because a function is stripped
if its name is listed. In the reports it shows as the order of some of them and
nothing more: a function is reported if it has a body, and once it has been
stripped it has none.

So two configurations with the same names have the same runs, but for the order
in which stripped functions are reported (`Config.run_sameSets`). The relation that
is carried through the run is between outcomes, those of steps that fail
included (`Outcome.Alike`).
-/

namespace ClosedWorld

/-! ## Equal but for the order of some reports -/

namespace Diagnostic

/-- The functions that are reported as stripped, in order. -/
def strippedNames (ds : List Diagnostic) : List String :=
  (ds.filter (·.kind == .strippedBody)).map (·.symbol)

theorem strippedNames_append (ds ds' : List Diagnostic) :
    strippedNames (ds ++ ds') = strippedNames ds ++ strippedNames ds' := by
  rw [strippedNames, List.filter_append, List.map_append]
  rfl

theorem strippedNames_eq_nil {ds : List Diagnostic} (h : ∀ d ∈ ds, d.kind ≠ .strippedBody) :
    strippedNames ds = [] := by
  rw [strippedNames, List.filter_eq_nil_iff.mpr fun d hd hkind => h d hd (beq_iff_eq.mp hkind)]
  rfl

/-- The two lists have the same reports, and those of stripped functions apart they
have them in the same order. -/
structure SameReports (ds ds' : List Diagnostic) : Prop where
  perm : ds.Perm ds'
  ordered : ds.filter (·.kind != .strippedBody) = ds'.filter (·.kind != .strippedBody)

theorem SameReports.refl (ds : List Diagnostic) : SameReports ds ds := ⟨.refl ds, rfl⟩

theorem SameReports.append {ds ds' es es' : List Diagnostic} (h : SameReports ds ds')
    (h' : SameReports es es') : SameReports (ds ++ es) (ds' ++ es') := by
  refine ⟨h.perm.append h'.perm, ?_⟩
  rw [List.filter_append, List.filter_append, h.ordered, h'.ordered]

theorem SameReports.nodup_strippedNames {ds ds' : List Diagnostic} (h : SameReports ds ds')
    (hds : (strippedNames ds).Nodup) : (strippedNames ds').Nodup :=
  ((h.perm.filter _).map _).nodup_iff.mp hds

end Diagnostic

/-- The outcomes differ at most in the order in which stripped functions are
reported, and in what is said of them in the log. -/
structure Outcome.Alike {α : Type} (o o' : Outcome α) : Prop where
  program : o.program = o'.program
  result : o.result = o'.result
  reports : Diagnostic.SameReports o.diagnostics o'.diagnostics

namespace Outcome

variable {α β : Type}

theorem Alike.refl (o : Outcome α) : o.Alike o := ⟨rfl, rfl, .refl _⟩

theorem Alike.andThen {o o' : Outcome α} (h : o.Alike o') {next next' : Program → α → Outcome β}
    (hnext : ∀ p a, (next p a).Alike (next' p a)) : (o.andThen next).Alike (o'.andThen next') := by
  cases hresult : o.result with
  | error e =>
      have hresult' : o'.result = .error e := h.result.symm.trans hresult
      rw [Outcome.andThen, Outcome.andThen, hresult, hresult']
      exact ⟨h.program, rfl, h.reports⟩
  | ok a =>
      have hresult' : o'.result = .ok a := h.result.symm.trans hresult
      have hlast := hnext o.program a
      refine ⟨?_, ?_, ?_⟩
      · rw [program_andThen hresult, program_andThen hresult', ← h.program, hlast.program]
      · rw [result_andThen hresult, result_andThen hresult', ← h.program, hlast.result]
      · rw [diagnostics_andThen hresult, diagnostics_andThen hresult', ← h.program]
        exact h.reports.append hlast.reports

end Outcome

namespace Config

/-- The configurations differ at most in the order of the names on their three
lists, and in how often these have a name. -/
structure SameSets (c c' : Config) : Prop where
  unsupported : ∀ name, name ∈ c.unsupported ↔ name ∈ c'.unsupported
  trusted : ∀ name, name ∈ c.trusted ↔ name ∈ c'.trusted
  stripped : ∀ name, name ∈ c.stripped ↔ name ∈ c'.stripped
  rest : c' = { c with
    unsupported := c'.unsupported, trusted := c'.trusted, stripped := c'.stripped }

variable {c c' : Config} {p : Program}

/-! ## The stages -/

theorem SameSets.checkUnsupported (h : c.SameSets c') (p : Program) :
    p.checkUnsupported c = p.checkUnsupported c' := by
  have hlisted : ∀ name, c.unsupported.contains name = c'.unsupported.contains name := by
    intro name
    rw [Bool.eq_iff_iff, List.contains_iff_mem, List.contains_iff_mem, h.unsupported]
  have hcall : p.unsupported? c.unsupported = p.unsupported? c'.unsupported := by
    funext s
    simp only [Program.unsupported?, hlisted]
  rw [Program.checkUnsupported, Program.checkUnsupported, Program.unsupportedCalls,
    Program.unsupportedCalls, hcall]

theorem SameSets.trusts (h : c.SameSets c') : c.trustList.trusts = c'.trustList.trusts := by
  have hmark : c'.oracleMark = c.oracleMark := by rw [h.rest]
  funext name
  have hlisted : c.trusted.contains name = c'.trusted.contains name := by
    rw [Bool.eq_iff_iff, List.contains_iff_mem, List.contains_iff_mem, h.trusted]
  rw [trustList, trustList, TrustList.trusts, TrustList.trusts, hmark, hlisted]

theorem SameSets.deleteUndefined (h : c.SameSets c') (p : Program) :
    p.deleteUndefined c = p.deleteUndefined c' := by
  have hundefined : c.trustList.isUndefined = c'.trustList.isUndefined := by
    funext f
    rw [TrustList.isUndefined, TrustList.isUndefined, h.trusts]
  have hcall : p.removal? c.trustList = p.removal? c'.trustList := by
    funext caller s
    rw [Program.removal?, Program.removal?, hundefined]
  have hplan : p.removalPlan c.trustList = p.removalPlan c'.trustList := by
    simp only [Program.removalPlan, Program.removals, hcall]
  rw [Program.deleteUndefined, Program.deleteUndefined, hplan]

theorem SameSets.stripBodies_diagnostics (h : c.SameSets c') (p : Program) :
    Diagnostic.SameReports (p.stripBodies c.stripped).diagnostics
      (p.stripBodies c'.stripped).diagnostics := by
  have hnone : ∀ names,
      (p.stripBodies names).diagnostics.filter (·.kind != .strippedBody) = [] := by
    intro names
    refine List.filter_eq_nil_iff.mpr fun d hd => ?_
    obtain ⟨name, -, rfl, -⟩ := Program.mem_stripBodies_diagnostics.mp hd
    exact Bool.false_ne_true
  refine ⟨?_, (hnone c.stripped).trans (hnone c'.stripped).symm⟩
  refine (List.perm_ext_iff_of_nodup ((p.nodup_stripBodies_diagnostics _).of_map _)
    ((p.nodup_stripBodies_diagnostics _).of_map _)).mpr fun d => ?_
  simp only [Program.mem_stripBodies_diagnostics, h.stripped]

theorem SameSets.entryPlan (h : c.SameSets c') (p : Program) : p.entryPlan c = p.entryPlan c' := by
  rw [h.rest]
  rfl

theorem SameSets.prepared (h : c.SameSets c') (p : Program) (plan : EntryPlan) :
    p.prepared c plan = p.prepared c' plan := by
  have hstripped : Func.strippedIn c.stripped = Func.strippedIn c'.stripped := by
    funext f
    simp only [Func.strippedIn, h.stripped]
  have htables : plan.tables c = plan.tables c' := by
    rw [h.rest]
    rfl
  rw [Program.prepared, Program.prepared, hstripped, htables]

theorem SameSets.prepareEntry (h : c.SameSets c') (p : Program) :
    (p.prepareEntry c).Alike (p.prepareEntry c') := by
  cases hplan : p.entryPlan c with
  | error e =>
      have hplan' : p.entryPlan c' = .error e := (h.entryPlan p).symm.trans hplan
      rw [Program.prepareEntry_of_error hplan, Program.prepareEntry_of_error hplan']
      exact .refl _
  | ok plan =>
      have hplan' : p.entryPlan c' = .ok plan := (h.entryPlan p).symm.trans hplan
      have hreport : plan.report c = plan.report c' := by
        rw [h.rest]
        rfl
      obtain ⟨hok, hprogram⟩ := Program.prepareEntry_of_ok hplan
      obtain ⟨hok', hprogram'⟩ := Program.prepareEntry_of_ok hplan'
      refine ⟨?_, hok.trans hok'.symm, ?_⟩
      · rw [hprogram, hprogram', h.prepared]
      · rw [Program.prepareEntry_diagnostics hplan, Program.prepareEntry_diagnostics hplan',
          hreport]
        exact (h.stripBodies_diagnostics p).append (.refl _)

theorem SameSets.runStage (h : c.SameSets c') (p : Program) (s : Stage) :
    (c.runStage p s).Alike (c'.runStage p s) := by
  cases s with
  | checkUnsupported =>
      rw [Config.runStage, Config.runStage, h.checkUnsupported]
      exact .refl _
  | deleteUndefined =>
      rw [Config.runStage, Config.runStage, h.deleteUndefined]
      exact .refl _
  | prepare => exact h.prepareEntry p

theorem SameSets.runStages (h : c.SameSets c') (p : Program) (ss : List Stage) :
    (c.runStages p ss).Alike (c'.runStages p ss) := by
  induction ss generalizing p with
  | nil => exact .refl _
  | cons s ss ih =>
      have hnoted : (c.runNoted p s).Alike (c'.runNoted p s) := by
        rw [runNoted, runNoted, Outcome.noting, Outcome.noting]
        exact (h.runStage p s).andThen fun _ _ => ⟨rfl, rfl, .refl _⟩
      rw [Config.runStages, Config.runStages]
      exact hnoted.andThen fun p _ => (ih p).andThen fun _ _ => .refl _

/-! ## Stripped once -/

theorem strippedNames_of_ne_prepare {s : Stage} {b : Bool} (hs : (c.runStage p s).result = .ok b)
    (hother : s ≠ .prepare) : Diagnostic.strippedNames (c.runStage p s).diagnostics = [] := by
  refine Diagnostic.strippedNames_eq_nil fun d hd hkind => ?_
  cases s with
  | checkUnsupported =>
      rw [checkUnsupported_diagnostics hd] at hkind
      cases hkind
  | deleteUndefined =>
      rw [runStage] at hs hd
      rw [Program.deleteUndefined_diagnostics hs] at hd
      obtain ⟨f, -, hd⟩ := List.mem_flatMap.mp hd
      obtain ⟨call, -, rfl⟩ := List.mem_map.mp hd
      cases hkind
  | prepare => exact absurd rfl hother

theorem strippedNames_prepareEntry {plan : EntryPlan} (hplan : p.entryPlan c = .ok plan) :
    Diagnostic.strippedNames (p.prepareEntry c).diagnostics =
      (p.stripBodies c.stripped).diagnostics.map (·.symbol) := by
  have hstripped : (p.stripBodies c.stripped).diagnostics.filter (·.kind == .strippedBody) =
      (p.stripBodies c.stripped).diagnostics := by
    refine List.filter_eq_self.mpr fun d hd => ?_
    obtain ⟨name, -, rfl, -⟩ := Program.mem_stripBodies_diagnostics.mp hd
    rfl
  have hrest : Diagnostic.strippedNames
      (((p.globals.filter Global.needsZero).map fun g => .initialized g.name) ++
        [plan.report c]) = [] := by
    refine Diagnostic.strippedNames_eq_nil fun d hd hkind => ?_
    rcases List.mem_append.mp hd with hd | hd
    · obtain ⟨g, -, rfl⟩ := List.mem_map.mp hd
      cases hkind
    · rw [List.mem_singleton.mp hd] at hkind
      cases plan <;> cases hkind
  rw [Program.prepareEntry_diagnostics hplan, Diagnostic.strippedNames_append, hrest,
    List.append_nil, Diagnostic.strippedNames, hstripped]

/-- A stage gives no function a body. Those that it reports as stripped are functions
that it takes a body from, and each of them is reported once. -/
theorem strippedNames_runStage {s : Stage} {b : Bool} (hs : (c.runStage p s).result = .ok b) :
    (∀ name, (c.runStage p s).program.HasBody name → p.HasBody name) ∧
      (Diagnostic.strippedNames (c.runStage p s).diagnostics).Nodup ∧
      ∀ name ∈ Diagnostic.strippedNames (c.runStage p s).diagnostics,
        p.HasBody name ∧ ¬ (c.runStage p s).program.HasBody name := by
  obtain ⟨rfl, -, hprogram⟩ | ⟨rfl, -, hprogram⟩ | ⟨rfl, plan, hplan, hprogram⟩ := runStage_eq_ok hs
  · rw [strippedNames_of_ne_prepare hs nofun, hprogram]
    exact ⟨fun _ h => h, List.nodup_nil, nofun⟩
  · rw [strippedNames_of_ne_prepare hs nofun, hprogram]
    exact ⟨fun _ h => Program.hasBody_eliminate.mp h, List.nodup_nil, nofun⟩
  · rw [hprogram, runStage, strippedNames_prepareEntry hplan]
    refine ⟨fun name h => (Program.hasBody_prepared.mp h).1, p.nodup_stripBodies_diagnostics _, ?_⟩
    intro name hname
    obtain ⟨d, hd, rfl⟩ := List.mem_map.mp hname
    obtain ⟨name, hmem, rfl, hbody⟩ := Program.mem_stripBodies_diagnostics.mp hd
    exact ⟨hbody, fun h => (Program.hasBody_prepared.mp h).2 hmem⟩

/-- What has no body is not stripped, and what has been stripped has none: so no
function is reported twice. -/
theorem nodup_strippedNames_runStages {ss : List Stage} {b : Bool}
    (h : (c.runStages p ss).result = .ok b) :
    (Diagnostic.strippedNames (c.runStages p ss).diagnostics).Nodup := by
  refine (runStages_report (R := fun _ p _ ds => (Diagnostic.strippedNames ds).Nodup ∧
    ∀ name ∈ Diagnostic.strippedNames ds, p.HasBody name) ?_ ?_ h).1
  · intro p
    exact ⟨List.nodup_nil, nofun⟩
  · intro s ss p b q ds hs ⟨honce, hbodies⟩
    obtain ⟨hbody, hfirst, hstripped⟩ := strippedNames_runStage hs
    rw [Diagnostic.strippedNames_append]
    refine ⟨List.nodup_append.mpr ⟨hfirst, honce, ?_⟩, fun name hname => ?_⟩
    · rintro name hname name' hname' rfl
      exact (hstripped name hname).2 (hbodies name hname')
    · rcases List.mem_append.mp hname with hname | hname
      · exact (hstripped name hname).1
      · exact hbody name (hbodies name hname)

/-! ## Runs -/

theorem SameSets.preconditions (h : c.SameSets c') (p : Program) :
    c.preconditions p = c'.preconditions p := by
  rw [h.rest]
  rfl

/-- A run that does not sum up what its steps have reported. -/
def unreported (c : Config) (p : Program) : Outcome Bool :=
  (Outcome.check p (c.preconditions p)).andThen fun p _ =>
    (c.runStages p c.stages).andThen fun p changed =>
      Outcome.check p ((if c.verifyOutput then p.verify else .ok ()).map fun _ => changed)

theorem run_result (c : Config) (p : Program) :
    (c.run p).result = (c.unreported p).result.map fun changed =>
      { diagnostics := (c.unreported p).diagnostics, modified := changed } := rfl

theorem SameSets.unreported (h : c.SameSets c') (p : Program) :
    (c.unreported p).Alike (c'.unreported p) := by
  have hstages : c'.stages = c.stages := by rw [h.rest]
  have houtput : c'.verifyOutput = c.verifyOutput := by rw [h.rest]
  rw [Config.unreported, Config.unreported, h.preconditions, hstages, houtput]
  exact (Outcome.Alike.refl _).andThen fun p _ =>
    (h.runStages p c.stages).andThen fun _ _ => .refl _

/-- **Lists of names are sets.** Two configurations that differ only in the order
and the repetitions of the names on their lists leave the same program and fail with
the same error, if they fail. If they go through, they have the same reports, and
those of stripped functions apart in the same order. No function is reported as
stripped twice. -/
theorem run_sameSets (h : c.SameSets c') (p : Program) :
    (c.run p).program = (c'.run p).program ∧
      (∀ e, (c.run p).result = .error e ↔ (c'.run p).result = .error e) ∧
      ((∃ report, (c.run p).result = .ok report) ↔ ∃ report, (c'.run p).result = .ok report) ∧
      ∀ report report', (c.run p).result = .ok report → (c'.run p).result = .ok report' →
        Diagnostic.SameReports report.diagnostics report'.diagnostics ∧
        report.modified = report'.modified ∧
        (Diagnostic.strippedNames report.diagnostics).Nodup ∧
        (Diagnostic.strippedNames report'.diagnostics).Nodup := by
  obtain ⟨hprogram, hresult, hreports⟩ := h.unreported p
  refine ⟨hprogram, fun e => ?_, ?_, fun report report' hrun hrun' => ?_⟩
  · rw [run_result, run_result, map_eq_error, map_eq_error, hresult]
  · simp only [run_result, map_eq_ok, hresult]
    constructor
    · rintro ⟨-, changed, hchanged, -⟩
      exact ⟨_, changed, hchanged, rfl⟩
    · rintro ⟨-, changed, hchanged, -⟩
      exact ⟨_, changed, hchanged, rfl⟩
  · have honce : (Diagnostic.strippedNames report.diagnostics).Nodup := by
      obtain ⟨-, b, hs, -⟩ := run_eq_ok_iff.mp hrun
      rw [run_report hrun]
      exact nodup_strippedNames_runStages hs
    rw [run_result] at hrun hrun'
    obtain ⟨changed, hchanged, rfl⟩ := map_eq_ok.mp hrun
    obtain ⟨changed', hchanged', rfl⟩ := map_eq_ok.mp hrun'
    rw [hresult, hchanged'] at hchanged
    cases hchanged
    exact ⟨hreports, rfl, honce, hreports.nodup_strippedNames honce⟩

/-- A program with two functions to strip, a call to an undefined one, and a global
without a value. -/
def dealing : Program where
  functions := [
    { name := "log", ret := .void },
    { name := "draw", ret := .int 32, body := some [
      { label := "entry", instrs := [.ret (some (.const (.int 32 4)))] }] },
    { name := "roll", ret := .int 32, body := some [
      { label := "entry", instrs := [.ret (some (.const (.int 32 6)))] }] },
    { name := "main", ret := .int 32, body := some [
      { label := "entry", instrs := [
        .call ⟨none, .void, .func "log", []⟩,
        .call ⟨some ⟨0⟩, .int 32, .func "roll", []⟩,
        .ret (some (.reg ⟨0⟩))] }] }]
  globals := [{ name := "score", ty := .int 32 }]

theorem run_sameSets_dealing :
    let c : Config := { stripped := ["draw", "roll", "draw"] }
    let c' : Config := { stripped := ["roll", "roll", "draw"] }
    c.SameSets c' ∧ (c.run dealing).program = (c'.run dealing).program ∧
      ∃ report report', (c.run dealing).result = .ok report ∧
        (c'.run dealing).result = .ok report' ∧
        Diagnostic.strippedNames report.diagnostics = ["draw", "roll"] ∧
        Diagnostic.strippedNames report'.diagnostics = ["roll", "draw"] ∧
        Diagnostic.SameReports report.diagnostics report'.diagnostics := by
  intro c c'
  have h : c.SameSets c' :=
    ⟨fun _ => .rfl, fun _ => .rfl, fun name => by simp [c, c', or_comm, or_left_comm], rfl⟩
  have hok : (c.run dealing).result.isOk = true := by decide +kernel
  have hnames : (c.run dealing).result.toOption.map
        (fun report => Diagnostic.strippedNames report.diagnostics) = some ["draw", "roll"] ∧
      (c'.run dealing).result.toOption.map
        (fun report => Diagnostic.strippedNames report.diagnostics) = some ["roll", "draw"] := by
    decide +kernel
  obtain ⟨hprogram, -, hiff, hall⟩ := run_sameSets h dealing
  obtain ⟨report, hrun⟩ := exists_of_isOk hok
  obtain ⟨report', hrun'⟩ := hiff.mp ⟨report, hrun⟩
  rw [hrun, hrun'] at hnames
  exact ⟨h, hprogram, report, report', hrun, hrun', Option.some.inj hnames.1,
    Option.some.inj hnames.2, (hall report report' hrun hrun').1⟩

end Config

end ClosedWorld

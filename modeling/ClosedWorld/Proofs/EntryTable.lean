import ClosedWorld.Proofs.Provenance
import ClosedWorld.Proofs.Rerun

/-!
# The life of the entry table

Only preparation has to do with the entry table. It adds one if there is none,
and where there is one it either keeps it or refuses to run. The rest is about
what "keeps" comes to.

A table that was there before any run is a global like others, and the loop that
puts zeros does not spare it: if it is mutable and has no initial value, it gets
one, and it is still reported as kept. Everything else about it stays
(`Config.run_keeps_table`).

A table that runs have made has an initial value, so no run touches it again.
Over any number of runs, successful or not, whose configurations agree about the
names, there is no table first, and from some point on there is the one table
(`Config.entryTable_afterRuns`). The invariant of the second phase holds more
than the table: all zeros are in place and the entry function is there, which is
what the check of a later preparation looks at before it looks at the policy.
-/

namespace ClosedWorld

/-! ## A table that was there -/

namespace Program

theorem entryPlan_eq_keep {p : Program} {c : Config} {plan : EntryPlan}
    (h : p.entryPlan c = .ok plan) {g : Global} (hg : p.global? c.entryTable = some g) :
    plan = .keep := by
  obtain ⟨-, -, -, ⟨-, hfree⟩ | ⟨hkeep, -⟩⟩ := entryPlan_eq_ok h
  · rw [hg] at hfree
    cases hfree
  · exact hkeep

theorem global?_prepared_keep (p : Program) (c : Config) (name : String) :
    (p.prepared c .keep).global? name = (p.global? name).map Global.zeroed := by
  rw [global?_prepared]
  exact Option.or_none

theorem prepareEntry_keeps_table {p : Program} {c : Config} {b : Bool}
    (h : (p.prepareEntry c).result = .ok b) {g : Global} (hg : p.global? c.entryTable = some g) :
    (p.prepareEntry c).program.globals.map Global.name = p.globals.map Global.name ∧
      (p.prepareEntry c).program.global? c.entryTable = some g.zeroed ∧
      EntryPlan.keep.report c ∈ (p.prepareEntry c).diagnostics := by
  obtain ⟨-, plan, hplan⟩ := prepareEntry_eq_ok.mp h
  cases entryPlan_eq_keep hplan hg
  rw [(prepareEntry_of_ok hplan).2, prepareEntry_diagnostics hplan, globalNames_prepared,
    global?_prepared_keep, hg]
  refine ⟨List.append_nil _, rfl, ?_⟩
  simp

end Program

namespace Config

variable {c : Config} {p : Program}

theorem runStage_globals {s : Stage} (h : s ≠ .prepare) :
    (c.runStage p s).program.globals = p.globals := by
  obtain hprogram | ⟨-, hprogram⟩ | ⟨hprepare, -⟩ := c.runStage_program_cases p s
  · rw [hprogram]
  · rw [hprogram]
    rfl
  · exact absurd hprepare h

theorem runStages_keeps_table {ss : List Stage} {b : Bool}
    (h : (c.runStages p ss).result = .ok b) {g : Global} (hg : p.global? c.entryTable = some g) :
    (c.runStages p ss).program.globals.map Global.name = p.globals.map Global.name ∧
      (c.runStages p ss).program.global? c.entryTable =
        some (if .prepare ∈ ss then g.zeroed else g) ∧
      (.prepare ∈ ss → EntryPlan.keep.report c ∈ (c.runStages p ss).diagnostics) := by
  refine runStages_report
    (R := fun ss p q ds => ∀ g, p.global? c.entryTable = some g →
      q.globals.map Global.name = p.globals.map Global.name ∧
        q.global? c.entryTable = some (if .prepare ∈ ss then g.zeroed else g) ∧
        (.prepare ∈ ss → EntryPlan.keep.report c ∈ ds)) ?_ ?_ h g hg
  · intro p g hg
    exact ⟨rfl, hg, fun hmem => absurd hmem List.not_mem_nil⟩
  · intro s ss p b q ds hs hrest g hg
    by_cases hprepare : s = .prepare
    · subst hprepare
      obtain ⟨hnames, hzeroed, hreport⟩ := Program.prepareEntry_keeps_table hs hg
      obtain ⟨hnames', htable, -⟩ := hrest g.zeroed hzeroed
      refine ⟨hnames'.trans hnames, ?_, fun _ => List.mem_append_left _ hreport⟩
      rw [htable, Global.zeroed_zeroed]
      simp
    · have hglobals : (c.runStage p s).program.globals = p.globals := runStage_globals hprepare
      have hsame : (c.runStage p s).program.global? c.entryTable = some g := by
        rw [Program.global?, hglobals]
        exact hg
      have hmem : .prepare ∈ s :: ss ↔ .prepare ∈ ss := by
        rw [List.mem_cons, or_iff_right fun heq => hprepare heq.symm]
      obtain ⟨hnames, htable, hreport⟩ := hrest g hsame
      rw [hglobals] at hnames
      simp only [hmem]
      exact ⟨hnames, htable, fun h => List.mem_append_right _ (hreport h)⟩

/-- **A table that was there is kept.** No global is added, preparation reports
that it has left the table alone, and so it has, unless the table was mutable
and had no initial value. Then it has the zero of its type. -/
theorem run_keeps_table {g : Global} (hg : p.global? c.entryTable = some g) {report : Report}
    (h : (c.run p).result = .ok report) :
    (c.run p).program.globals.map Global.name = p.globals.map Global.name ∧
      ((c.run p).program.global? c.entryTable =
        if .prepare ∈ c.stages ∧ g.needsZero = true then
          some { g with initial := Constant.zeroOf? g.ty } else some g) ∧
      (.prepare ∈ c.stages →
        { kind := .entryTableKept, symbol := c.entryTable } ∈ report.diagnostics) := by
  have hreport := run_report h
  obtain ⟨-, b, hs, hprogram⟩ := run_eq_ok h
  obtain ⟨hnames, htable, hkept⟩ := runStages_keeps_table hs hg
  rw [hprogram, hreport]
  refine ⟨hnames, ?_, hkept⟩
  rw [htable, Global.zeroed]
  by_cases hmem : Stage.prepare ∈ c.stages
  · simp only [hmem, if_true, true_and]
    split <;> rfl
  · simp only [hmem, if_false, false_and]

/-- A table of another shape, which is read-only. -/
def listed : Global where
  name := "__ai_init_functions"
  ty := .array (.ptr (.func .void [] false)) 1
  isConstant := true
  initial := some (.array (.ptr (.func .void [] false)) [.funcAddr "init"])

/-- A program that has this table, and a global with no initial value beside it. -/
def listing : Program where
  functions := [
    { name := "init", ret := .void },
    { name := "main", ret := .int 32, body := some [
      { label := "entry", instrs := [.ret (some (.const (.int 32 0)))] }] }]
  globals := [{ name := "counter", ty := .int 32 }, listed]

theorem run_keeps_table_listing :
    let c : Config := {}
    ∃ report, listing.global? c.entryTable = some listed ∧
      (c.run listing).result = .ok report ∧ (c.run listing).program ≠ listing ∧
      (c.run listing).program.global? c.entryTable = some listed ∧
      { kind := .entryTableKept, symbol := c.entryTable } ∈ report.diagnostics := by
  intro c
  have hg : listing.global? c.entryTable = some listed := by decide +kernel
  have hok : (c.run listing).result.isOk = true := by decide +kernel
  have hchanged : (c.run listing).program ≠ listing := by decide +kernel
  obtain ⟨report, h⟩ := exists_of_isOk hok
  obtain ⟨-, htable, hreport⟩ := run_keeps_table hg h
  rw [if_neg (by decide +kernel)] at htable
  exact ⟨report, hg, h, hchanged, htable, hreport (by decide)⟩

/-- A program with a table that is mutable and has no initial value. -/
def keeping : Program where
  name := "keeping"
  functions := [
    { name := "main", ret := .int 32, body := some [
      { label := "entry", instrs := [.ret (some (.const (.int 32 0)))] }] }]
  globals := [{ name := "__ai_init_functions", ty := .array .bytePtr 4 }]

/-- A table may change under the policy that keeps it. -/
theorem not_run_keeps_table_keeping :
    let c : Config := {}
    c.tablePolicy = .keep ∧ keeping.Keyed ∧ (c.run keeping).result.isOk = true ∧
      (keeping.global? c.entryTable).map Global.initial = some none ∧
      ((c.run keeping).program.global? c.entryTable).map Global.initial =
        some (some (.zeroInit (.array .bytePtr 4))) := by
  intro c
  refine ⟨rfl, ?_⟩
  decide +kernel

end Config

/-! ## Several runs -/

/-- What runs of several configurations leave, one after another, whether they
succeed or not. -/
def Program.afterRuns (p : Program) (cs : List Config) : Program :=
  cs.foldl (fun p c => (c.run p).program) p

theorem Program.afterRuns_preserves {P : Program → Prop} {p : Program} {cs : List Config}
    (hrun : ∀ c ∈ cs, ∀ p, P p → P (c.run p).program) (h : P p) : P (p.afterRuns cs) := by
  induction cs generalizing p with
  | nil => exact h
  | cons c cs ih =>
      have hfirst : P (c.run p).program := hrun c List.mem_cons_self p h
      exact ih (fun c' hc' => hrun c' (List.mem_cons_of_mem c hc')) hfirst

/-- Two configurations agree about the entry function and the name of the table.
All else may differ. -/
structure Config.SameEntry (c c' : Config) : Prop where
  entryFunction : c'.entryFunction = c.entryFunction
  entryTable : c'.entryTable = c.entryTable

theorem Config.SameEntry.entryTableGlobal {c c' : Config} (h : c.SameEntry c') :
    c'.entryTableGlobal = c.entryTableGlobal := by
  rw [Config.entryTableGlobal, Config.entryTableGlobal, h.entryFunction, h.entryTable]

namespace Program

/-- There is no table yet, and the globals have these names. -/
structure Unpublished (c : Config) (names : List String) (p : Program) : Prop where
  names : p.globals.map Global.name = names
  free : p.global? c.entryTable = none

/-- The table has been added to globals of these names, by a preparation that
has also put the zeros. -/
structure Published (c : Config) (names : List String) (p : Program) : Prop where
  names : p.globals.map Global.name = names ++ [c.entryTable]
  table : p.global? c.entryTable = some c.entryTableGlobal
  entry : (p.function? c.entryFunction).isSome = true
  unmixed : p.function? c.entryTable = none
  zeroed : ∀ g ∈ p.globals, g.needsZero = false

section Steps

variable {c c' : Config} {names : List String} {p : Program} {plan : EntryPlan}

theorem Unpublished.eliminate (h : p.Unpublished c names) (t : TrustList) :
    (p.eliminate t).Unpublished c names :=
  ⟨h.names, h.free⟩

theorem Published.eliminate (h : p.Published c names) (t : TrustList) :
    (p.eliminate t).Published c names := by
  refine ⟨h.names, h.table, ?_, ?_, h.zeroed⟩
  · rw [function?_eliminate, Option.isSome_map]
    exact h.entry
  · rw [function?_eliminate, h.unmixed]
    rfl

theorem Unpublished.prepared (h : p.Unpublished c names) (hsame : c.SameEntry c')
    (hplan : p.entryPlan c' = .ok plan) : (p.prepared c' plan).Published c names := by
  have hprepared := entryPrepared_prepared hplan
  have hfree := h.free
  rw [← hsame.entryTable] at hfree
  -- The name was free, so the plan is to add a table, not to keep one.
  obtain ⟨-, -, -, ⟨rfl, -⟩ | ⟨-, hsome⟩⟩ := entryPlan_eq_ok hplan
  · refine ⟨?_, ?_, hsame.entryFunction ▸ hprepared.entry, hsame.entryTable ▸ hprepared.unmixed,
      hprepared.zeroed⟩
    · rw [globalNames_prepared, h.names, ← hsame.entryTable]
      rfl
    · rw [← hsame.entryTable, ← hsame.entryTableGlobal, global?_prepared, hfree]
      rw [Option.map_none, Option.none_or]
      exact List.find?_cons_of_pos (a := c'.entryTableGlobal) (beq_self_eq_true c'.entryTable)
  · rw [hfree] at hsome
    cases hsome

theorem Published.prepared (h : p.Published c names) (hsame : c.SameEntry c')
    (hplan : p.entryPlan c' = .ok plan) : (p.prepared c' plan).Published c names := by
  have hprepared := entryPrepared_prepared hplan
  have htable : p.global? c'.entryTable = some c.entryTableGlobal := hsame.entryTable ▸ h.table
  cases entryPlan_eq_keep hplan htable
  refine ⟨?_, ?_, hsame.entryFunction ▸ hprepared.entry, hsame.entryTable ▸ hprepared.unmixed,
    hprepared.zeroed⟩
  · rw [globalNames_prepared, h.names]
    exact List.append_nil _
  · rw [global?_prepared_keep, h.table]
    exact congrArg some c.zeroed_entryTableGlobal

end Steps

end Program

namespace Config

variable {c c' : Config} {names : List String} {p : Program}

theorem published_run (h : p.Published c names) (hsame : c.SameEntry c') :
    (c'.run p).program.Published c names :=
  run_preserves (fun _ hp => hp.eliminate c'.trustList) (fun _ _ hp => hp.prepared hsame) h

theorem unpublished_or_published_run (h : p.Unpublished c names ∨ p.Published c names)
    (hsame : c.SameEntry c') :
    (c'.run p).program.Unpublished c names ∨ (c'.run p).program.Published c names := by
  refine run_preserves (P := fun p => p.Unpublished c names ∨ p.Published c names) ?_ ?_ h
  · intro p hp
    exact hp.imp (·.eliminate c'.trustList) (·.eliminate c'.trustList)
  · intro p plan hp hplan
    rcases hp with hp | hp
    · exact Or.inr (hp.prepared hsame hplan)
    · exact Or.inr (hp.prepared hsame hplan)

theorem isSome_global?_run (hmem : .prepare ∈ c.stages) {report : Report}
    (h : (c.run p).result = .ok report) :
    ((c.run p).program.global? c.entryTable).isSome = true := by
  obtain ⟨-, b, hs, hprogram⟩ := run_eq_ok h
  rw [hprogram]
  refine runStages_establishes (P := fun p => (p.global? c.entryTable).isSome = true) ?_
    (Or.inl hmem) hs
  intro s p b htable hs
  by_cases hprepare : s = .prepare
  · subst hprepare
    obtain ⟨hs', -⟩ | ⟨hs', -⟩ | ⟨-, plan, hplan, hfirst⟩ := runStage_eq_ok hs
    · cases hs'
    · cases hs'
    · rw [hfirst]
      exact (Program.entryPrepared_prepared hplan).table
  · rw [Program.global?, runStage_globals hprepare]
    exact htable.resolve_left fun heq => hprepare heq.symm

/-- Where the table is published, a run that would prepare the entry and rejects
a table fails before it does anything. -/
theorem run_of_published_reject (h : p.Published c names) (hp : p.WellFormed)
    (hsame : c.SameEntry c') (hcheck : c'.check = .ok ()) (hreject : c'.tablePolicy = .reject)
    (hmem : .prepare ∈ c'.stages) :
    (c'.run p).result = .error (.entryTableExists c.entryTable) ∧ (c'.run p).program = p := by
  have hverify : (if c'.verifyInput then p.verify else .ok ()) = .ok () := by
    split
    · exact Program.verify_eq_ok_iff.mpr hp
    · rfl
  have htable : (p.global? c'.entryTable).isSome = true := by
    rw [hsame.entryTable, h.table]
    rfl
  have hplan : p.entryPlan c' = .error (.entryTableExists c.entryTable) := by
    rw [Program.entryPlan_of_table (hsame.entryFunction ▸ h.entry) h.zeroed
      (hsame.entryTable ▸ h.unmixed) htable, hreject, hsame.entryTable]
  have hpre : c'.preconditions p = .error (.entryTableExists c.entryTable) := by
    rw [preconditions_eq, hcheck, hverify, if_pos (runs_iff.mpr hmem), hplan]
    rfl
  obtain ⟨hprogram, hresult⟩ := run_of_preconditions_error hpre
  exact ⟨hresult, hprogram⟩

/-- **The life of the table.** Take a well-formed program without a table, and
runs in any number whose configurations name the same entry function and the
same table. At every point there is no table and no new global, or there is the
right table and it is the only new global. A run that succeeds and prepares the
entry leaves the table there, later runs do not touch it, and where a table is to
be rejected they fail and do nothing. -/
theorem entryTable_afterRuns (hp : p.verify = .ok ()) (hfree : p.global? c.entryTable = none)
    {cs : List Config} (hcs : ∀ c' ∈ cs, c.SameEntry c') :
    let q := p.afterRuns cs
    ((q.global? c.entryTable = none ∧ q.globals.map Global.name = p.globals.map Global.name) ∨
      (q.global? c.entryTable = some c.entryTableGlobal ∧
        (q.function? c.entryFunction).isSome = true ∧
        q.globals.map Global.name = p.globals.map Global.name ++ [c.entryTable])) ∧
    (∀ c' report, c.SameEntry c' → .prepare ∈ c'.stages → (c'.run q).result = .ok report →
      (c'.run q).program.global? c.entryTable = some c.entryTableGlobal) ∧
    (q.global? c.entryTable = some c.entryTableGlobal →
      (∀ cs' : List Config, (∀ c' ∈ cs', c.SameEntry c') →
        (q.afterRuns cs').global? c.entryTable = some c.entryTableGlobal) ∧
      ∀ c', c.SameEntry c' → c'.check = .ok () → c'.tablePolicy = .reject →
        .prepare ∈ c'.stages →
        (c'.run q).result = .error (.entryTableExists c.entryTable) ∧ (c'.run q).program = q) := by
  intro q
  have hq : q.WellFormed :=
    Program.afterRuns_preserves (fun _ _ _ hp => run_program_wellFormed hp)
      (Program.verify_eq_ok_iff.mp hp)
  have hstate : q.Unpublished c (p.globals.map Global.name) ∨
      q.Published c (p.globals.map Global.name) :=
    Program.afterRuns_preserves (P := fun q => q.Unpublished c (p.globals.map Global.name) ∨
        q.Published c (p.globals.map Global.name))
      (fun c' hc' _ h => unpublished_or_published_run h (hcs c' hc')) (Or.inl ⟨rfl, hfree⟩)
  refine ⟨?_, ?_, ?_⟩
  · rcases hstate with h | h
    · exact Or.inl ⟨h.free, h.names⟩
    · exact Or.inr ⟨h.table, h.entry, h.names⟩
  · intro c' report hsame hmem hrun
    have hsome := isSome_global?_run hmem hrun
    rcases unpublished_or_published_run hstate hsame with h | h
    · rw [hsame.entryTable, h.free] at hsome
      cases hsome
    · exact h.table
  · intro htable
    have hpublished : q.Published c (p.globals.map Global.name) := by
      refine hstate.resolve_left fun h => ?_
      rw [h.free] at htable
      cases htable
    refine ⟨fun cs' hcs' => ?_, fun c' hsame hcheck hreject hmem => ?_⟩
    · exact (Program.afterRuns_preserves
        (fun c' hc' _ h => published_run h (hcs' c' hc')) hpublished).table
    · exact run_of_published_reject hpublished hq hsame hcheck hreject hmem

/-- A first run fails after its preparation, and the table stays for good. -/
theorem entryTable_afterRuns_signing :
    let c : Config := { trusted := [], stripped := [], stages := [.prepare, .deleteUndefined] }
    let rejecting : Config := { c with tablePolicy := .reject }
    let q := signing.afterRuns [c]
    signing.global? c.entryTable = none ∧ (c.run signing).result.isOk = false ∧
      q.globals = [c.entryTableGlobal] ∧
      (q.afterRuns [c, rejecting, {}]).global? c.entryTable = some c.entryTableGlobal ∧
      (rejecting.run q).result = .error (.entryTableExists c.entryTable) ∧
      (rejecting.run q).program = q := by
  intro c rejecting q
  have hsame : ∀ c' ∈ [c, rejecting, {}], c.SameEntry c' := by
    intro c' hc'
    rcases List.mem_cons.mp hc' with rfl | hc'
    · exact ⟨rfl, rfl⟩
    rcases List.mem_cons.mp hc' with rfl | hc'
    · exact ⟨rfl, rfl⟩
    · rw [List.mem_singleton.mp hc']
      exact ⟨rfl, rfl⟩
  have hfirst : ∀ c' ∈ [c], c.SameEntry c' := by
    intro c' hc'
    rw [List.mem_singleton.mp hc']
    exact ⟨rfl, rfl⟩
  have hglobals : q.globals = [c.entryTableGlobal] := by decide +kernel
  have htable : q.global? c.entryTable = some c.entryTableGlobal := by decide +kernel
  have hfails : (c.run signing).result.isOk = false := by decide +kernel
  obtain ⟨-, -, hlater⟩ := entryTable_afterRuns (p := signing) (c := c) rfl rfl hfirst
  obtain ⟨hkept, hreject⟩ := hlater htable
  obtain ⟨herror, hprogram⟩ := hreject rejecting ⟨rfl, rfl⟩ rfl rfl (by decide)
  exact ⟨rfl, hfails, hglobals, hkept _ hsame, herror, hprogram⟩

end Config

end ClosedWorld

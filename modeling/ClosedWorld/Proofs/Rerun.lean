import ClosedWorld.Proofs.Closure
import ClosedWorld.Proofs.Reports

/-!
# A second run finds nothing to do

A run that has succeeded can be repeated on what it left, and the second time
nothing changes (`Config.run_idempotent`). It takes two conditions: an entry
table that is there has to be kept, and the stripped functions have to be
trusted.

The argument gives every stage a condition that says it would find nothing to do
(`Config.Done`). A stage that succeeds establishes its own, and no stage
destroys the condition of another. That last point is where the stages could
get in each other's way. Stripping leaves calls to functions without a body,
which elimination would remove, and only the trust in the stripped functions
keeps these calls from being doomed. The table is a new global, which might be
in need of a zero, but it has an initial value. So after a run all conditions
hold, in whatever order its stages came, and a stage whose condition holds
changes nothing and reports at most what it always reports.
-/

namespace ClosedWorld

/-! ## Nothing to remove -/

namespace Program

theorem Resolved.eliminate {p : Program} (hp : p.Resolved) (t : TrustList) :
    (p.eliminate t).Resolved := by
  intro f' hf' call' hcall' name hname
  obtain ⟨f, hf, rfl⟩ := List.mem_map.mp hf'
  obtain ⟨call, hcall, -, hcallee⟩ := Func.exists_call_of_eliminate hcall'
  obtain ⟨hne, hsome⟩ := hp f hf call hcall name (hcallee ▸ hname)
  refine ⟨hne, ?_⟩
  rw [function?_eliminate, Option.isSome_map]
  exact hsome

theorem Resolved.prepared {p : Program} (hp : p.Resolved) (c : Config) (plan : EntryPlan) :
    (p.prepared c plan).Resolved := by
  intro f' hf' call hcall name hname
  obtain ⟨f, hf, rfl⟩ := List.mem_map.mp hf'
  obtain ⟨hne, hsome⟩ := hp f hf call (Func.mem_calls_strippedIn hcall) name hname
  refine ⟨hne, ?_⟩
  rw [function?_prepared, Option.isSome_map]
  exact hsome

/-- Where every call resolves and none is doomed, elimination does nothing. -/
theorem deleteUndefined_of_closed {p : Program} {c : Config} (hp : p.Resolved)
    (hclosed : p.Closed c.trustList) :
    p.deleteUndefined c = { program := p, events := [], result := .ok false } := by
  have hsafe : ∀ f ∈ p.functions, ∀ call ∈ f.calls, p.dooms c.trustList call = false :=
    fun f hf call hcall => not_doomed_of_settled (hclosed f hf call hcall)
  cases hplan : p.removalPlan c.trustList with
  | error e =>
      obtain ⟨f, hf, call, hcall, hfault⟩ := removalPlan_eq_error hplan
      refine absurd hfault (Eliminable.no_callFault ⟨hp, ?_⟩ hf hcall e)
      intro f hf call hcall hd
      rw [hsafe f hf call hcall] at hd
      cases hd
  | ok plan =>
      have hempty : plan = p.functions.map fun f => (f, []) := by
        rw [(removalPlan_eq_ok hplan).2]
        refine List.map_congr_left fun f hf => ?_
        have hnone : (f.placedCalls.filter fun s => p.dooms c.trustList s.call) = [] := by
          refine List.filter_eq_nil_iff.mpr fun s hs => ?_
          have hcall : s.call ∈ f.calls := by
            rw [← f.map_call_placedCalls]
            exact List.mem_map_of_mem hs
          rw [hsafe f hf s.call hcall]
          exact Bool.false_ne_true
        rw [hnone, List.map_nil]
      have herase : ∀ f : Func, f.erase [] = f := by
        intro f
        rw [Func.erase]
        cases f with
        | mk name ret params variadic linkage body => cases body <;> rfl
      rw [deleteUndefined, hplan, hempty]
      simp only [List.map_map, Function.comp_def, Func.applyReplacements, herase, List.map_id',
        List.flatMap_map, List.any_map]
      congr 1
      · exact List.flatMap_eq_nil_iff.mpr fun _ _ => rfl
      · rw [List.any_eq_false.mpr fun _ _ => by simp]

/-! ## Nothing to prepare -/

/-- The entry is prepared: every stripped function is an external declaration,
no global is in need of a zero, and the table is there. -/
structure EntryPrepared (c : Config) (p : Program) : Prop where
  entry : (p.function? c.entryFunction).isSome = true
  stripped : ∀ f ∈ p.functions, f.name ∈ c.stripped → f.stripped = f
  zeroed : ∀ g ∈ p.globals, g.needsZero = false
  unmixed : p.function? c.entryTable = none
  table : (p.global? c.entryTable).isSome = true

end Program

theorem Func.stripped_strippedIn {names : List String} {f : Func} (h : f.name ∈ names) :
    (f.strippedIn names).stripped = f.strippedIn names := by
  rw [strippedIn, if_pos h]
  rfl

namespace Program

variable {c : Config} {p : Program}

theorem entryPrepared_prepared {plan : EntryPlan} (h : p.entryPlan c = .ok plan) :
    (p.prepared c plan).EntryPrepared c := by
  obtain ⟨hentry, hzeros, htable, hplan⟩ := entryPlan_eq_ok h
  refine ⟨?_, ?_, ?_, ?_, ?_⟩
  · rw [function?_prepared, Option.isSome_map]
    exact hentry
  · intro f' hf' hname
    obtain ⟨f, hf, rfl⟩ := List.mem_map.mp hf'
    rw [Func.strippedIn_name] at hname
    exact Func.stripped_strippedIn hname
  · intro g hg
    rcases List.mem_append.mp hg with hg | hg
    · obtain ⟨g', hg', rfl⟩ := List.mem_map.mp hg
      exact Global.zeroed_needsZero (hzeros g' hg')
    · cases plan with
      | keep => cases hg
      | create =>
          rw [EntryPlan.tables, List.mem_singleton] at hg
          rw [hg]
          rfl
  · rw [function?_prepared, htable]
    rfl
  · rw [isSome_global?, globalNames_prepared, List.mem_append]
    rcases hplan with ⟨rfl, -⟩ | ⟨-, hsome⟩
    · exact Or.inr List.mem_cons_self
    · exact Or.inl ((isSome_global? p c.entryTable).mp hsome)

theorem EntryPrepared.eliminate (hp : p.EntryPrepared c) (t : TrustList) :
    (p.eliminate t).EntryPrepared c := by
  refine ⟨?_, ?_, hp.zeroed, ?_, hp.table⟩
  · rw [function?_eliminate, Option.isSome_map]
    exact hp.entry
  · intro f' hf' hname
    obtain ⟨f, hf, rfl⟩ := List.mem_map.mp hf'
    rw [← hp.stripped f hf hname]
    rfl
  · rw [function?_eliminate, hp.unmixed]
    rfl

theorem EntryPrepared.entryPlan (hp : p.EntryPrepared c) (hkeep : c.tablePolicy = .keep) :
    p.entryPlan c = .ok .keep := by
  rw [entryPlan_of_table hp.entry hp.zeroed hp.unmixed hp.table, hkeep]

theorem stripBodies_of_stripped {names : List String}
    (h : ∀ f ∈ p.functions, f.name ∈ names → f.stripped = f) :
    p.stripBodies names = { program := p, events := [], result := .ok false } := by
  induction names with
  | nil => rfl
  | cons name names ih =>
      have hbody : p.stripBody name = { program := p, events := [], result := .ok false } := by
        rw [stripBody]
        cases hf : p.function? name with
        | none => rfl
        | some f =>
            have hname : f.name ∈ name :: names := by
              rw [function?_name hf]
              exact List.mem_cons_self
            have hmodify : p.modify name Func.stripped = p :=
              modify_of_fixed fun f hf hname => h f hf (hname ▸ List.mem_cons_self)
            have hdecl : f.isDeclaration = true := by
              rw [← h f (function?_mem hf) hname]
              rfl
            simp only [hmodify, hdecl, if_true]
      have hrest := ih fun f hf hname => h f hf (List.mem_cons_of_mem name hname)
      rw [stripBodies, hbody]
      simp only [Outcome.andThen, hrest]
      rfl

theorem zeroAll_of_zeroed {gs : List Global} (h : ∀ g ∈ gs, g.needsZero = false) :
    zeroAll gs = (gs, [], .ok false) := by
  induction gs with
  | nil => rfl
  | cons g gs ih =>
      rw [zeroAll, h g List.mem_cons_self, ih fun g' hg' => h g' (List.mem_cons_of_mem g hg')]
      rfl

/-- Where the entry is prepared, preparation only reports the table. -/
theorem EntryPrepared.prepareEntry (hp : p.EntryPrepared c) (hkeep : c.tablePolicy = .keep) :
    p.prepareEntry c =
      { program := p
        events := [.diagnostic { kind := .entryTableKept, symbol := c.entryTable }]
        result := .ok true } := by
  have hzero : p.zeroGlobals = { program := p, events := [], result := .ok false } := by
    rw [zeroGlobals, zeroAll_of_zeroed hp.zeroed]
  rw [Program.prepareEntry, hp.entryPlan hkeep]
  simp only [Outcome.check, Outcome.andThen, stripBodies_of_stripped hp.stripped, hzero,
    publishEntryTable]
  rfl

end Program

/-! ## Stages that are done -/

namespace Config

variable {c : Config} {p : Program}

/-- The stage has been carried out, and would find nothing to do. -/
def Done (c : Config) (p : Program) : Stage → Prop
  | .checkUnsupported => p.Resolved
  | .deleteUndefined => p.Resolved ∧ p.Closed c.trustList
  | .prepare => p.EntryPrepared c

/-- A stage that succeeds is done, and undoes no other. -/
theorem done_runStage (htrust : ∀ name ∈ c.stripped, c.trustList.trusts name = true)
    {s s' : Stage} (h : s' = s ∨ c.Done p s') {b : Bool} (hb : (c.runStage p s).result = .ok b) :
    c.Done (c.runStage p s).program s' := by
  obtain ⟨rfl, hp, hprogram⟩ | ⟨rfl, hp, hprogram⟩ | ⟨rfl, plan, hplan, hprogram⟩ :=
    runStage_eq_ok hb
  · rw [hprogram]
    rcases h with rfl | h
    · exact hp
    · exact h
  · rw [hprogram]
    cases s' with
    | checkUnsupported => exact hp.eliminate c.trustList
    | deleteUndefined => exact ⟨hp.eliminate c.trustList, Program.closed_eliminate hp⟩
    | prepare => exact (h.resolve_left Stage.noConfusion).eliminate c.trustList
  · rw [hprogram]
    cases s' with
    | checkUnsupported => exact (h.resolve_left Stage.noConfusion).prepared c plan
    | deleteUndefined =>
        obtain ⟨hp, hclosed⟩ := h.resolve_left Stage.noConfusion
        exact ⟨hp.prepared c plan, hclosed.prepared htrust plan⟩
    | prepare => exact Program.entryPrepared_prepared hplan

theorem done_runStages (htrust : ∀ name ∈ c.stripped, c.trustList.trusts name = true)
    {ss : List Stage} {s' : Stage} (h : s' ∈ ss ∨ c.Done p s') {b : Bool}
    (hb : (c.runStages p ss).result = .ok b) : c.Done (c.runStages p ss).program s' :=
  runStages_establishes (P := fun p => c.Done p s') (fun _ _ _ h hs => done_runStage htrust h hs)
    h hb

/-! ## Carrying out what is done -/

/-- What a stage that is done still reports, apart from unsupported calls. -/
def keptTable (c : Config) : Stage → List Diagnostic
  | .prepare => [{ kind := .entryTableKept, symbol := c.entryTable }]
  | _ => []

/-- A stage that is done changes nothing. -/
theorem Done.runStage {s : Stage} (h : c.Done p s) (hkeep : c.tablePolicy = .keep) :
    (c.runStage p s).program = p ∧ (∃ b, (c.runStage p s).result = .ok b) ∧
      (c.runStage p s).diagnostics.filter (·.kind ≠ .unsupportedCall) = c.keptTable s := by
  cases s with
  | checkUnsupported =>
      refine ⟨p.checkUnsupported_program c,
        ⟨false, Program.checkUnsupported_eq_ok.mpr ⟨rfl, h⟩⟩, ?_⟩
      refine List.filter_eq_nil_iff.mpr fun d hd => ?_
      simp [checkUnsupported_diagnostics hd]
  | deleteUndefined =>
      rw [Config.runStage, Program.deleteUndefined_of_closed h.1 h.2]
      exact ⟨rfl, ⟨false, rfl⟩, rfl⟩
  | prepare =>
      rw [Config.runStage, Program.EntryPrepared.prepareEntry h hkeep]
      exact ⟨rfl, ⟨true, rfl⟩, rfl⟩

theorem runStages_of_done {ss : List Stage} (h : ∀ s ∈ ss, c.Done p s)
    (hkeep : c.tablePolicy = .keep) :
    (c.runStages p ss).program = p ∧ (∃ b, (c.runStages p ss).result = .ok b) ∧
      (c.runStages p ss).diagnostics.filter (·.kind ≠ .unsupportedCall) =
        ss.flatMap c.keptTable := by
  induction ss with
  | nil => exact ⟨rfl, ⟨false, rfl⟩, rfl⟩
  | cons s ss ih =>
      obtain ⟨hprogram, ⟨b, hb⟩, hfilter⟩ := (h s List.mem_cons_self).runStage hkeep
      obtain ⟨hrest, ⟨b', hb'⟩, hfilter'⟩ := ih fun s' hs' => h s' (List.mem_cons_of_mem s hs')
      obtain ⟨hfirst, hresult⟩ := runStages_cons_of_ok ss hb
      rw [← hprogram] at hb'
      refine ⟨?_, ⟨b || b', ?_⟩, ?_⟩
      · rw [hfirst, hprogram, hrest]
      · rw [hresult, hb']
        rfl
      · rw [runStages_cons_diagnostics hb hb', List.filter_append, hfilter, hprogram, hfilter',
          List.flatMap_cons]

theorem flatMap_keptTable {ss : List Stage} (honce : ss.Nodup) :
    ss.flatMap c.keptTable =
      if .prepare ∈ ss then [{ kind := .entryTableKept, symbol := c.entryTable }] else [] := by
  induction ss with
  | nil => rfl
  | cons s ss ih =>
      obtain ⟨hs, honce⟩ := List.nodup_cons.mp honce
      rw [List.flatMap_cons, ih honce]
      cases s with
      | checkUnsupported | deleteUndefined => simp [keptTable]
      | prepare => simp [keptTable, hs]

/-! ## The second run -/

/-- The checks at the beginning of a run pass again on what it has left. -/
theorem preconditions_run {report : Report} (h : (c.run p).result = .ok report)
    (hplan : .prepare ∈ c.stages → ∃ plan, (c.run p).program.entryPlan c = .ok plan) :
    c.preconditions (c.run p).program = .ok () := by
  obtain ⟨hpre, -⟩ := run_eq_ok h
  obtain ⟨hcheck, hverify, -⟩ := preconditions_eq_ok hpre
  refine preconditions_of_ok hcheck (fun hin => ?_) hplan
  exact Program.verify_eq_ok_iff.mpr
    (run_program_wellFormed (Program.verify_eq_ok_iff.mp (hverify hin)))

/-- What a run has left has passed its last check, if that was asked for. -/
theorem run_output {report : Report} (h : (c.run p).result = .ok report) :
    (if c.verifyOutput then (c.run p).program.verify else .ok ()) = .ok () := by
  obtain ⟨hpre, b, hs, hprogram⟩ := run_eq_ok h
  rw [(run_of_stages_ok hpre hs).2] at h
  obtain ⟨_, hok, -⟩ := map_eq_ok.mp h
  rw [hprogram]
  exact hok

/-- **A second run changes nothing.** It succeeds on what the first one has left
and leaves it as it is. Apart from unsupported calls, which are reported in every
run, all it reports is that the entry table was there, and this once, if
preparation is among the stages. -/
theorem run_idempotent (hkeep : c.tablePolicy = .keep)
    (htrust : ∀ name ∈ c.stripped, c.trustList.trusts name = true) {report : Report}
    (h : (c.run p).result = .ok report) :
    (c.run (c.run p).program).program = (c.run p).program ∧
      ∃ report', (c.run (c.run p).program).result = .ok report' ∧
        report'.diagnostics.filter (·.kind ≠ .unsupportedCall) =
          if .prepare ∈ c.stages then [{ kind := .entryTableKept, symbol := c.entryTable }]
          else [] := by
  obtain ⟨hpre, b, hs, hprogram⟩ := run_eq_ok h
  have hdone : ∀ s ∈ c.stages, c.Done (c.run p).program s := by
    intro s hmem
    rw [hprogram]
    exact done_runStages htrust (Or.inl hmem) hs
  have hagain : c.preconditions (c.run p).program = .ok () :=
    preconditions_run h fun hmem =>
      ⟨.keep, Program.EntryPrepared.entryPlan (hdone .prepare hmem) hkeep⟩
  obtain ⟨hsame, ⟨b', hb'⟩, hfilter⟩ := runStages_of_done hdone hkeep
  obtain ⟨hprogram', hresult⟩ := run_of_stages_ok hagain hb'
  have hok : (c.run (c.run p).program).result =
      .ok { diagnostics := (c.runStages (c.run p).program c.stages).diagnostics,
            modified := b' } := by
    rw [hresult, hsame, run_output h]
    rfl
  refine ⟨by rw [hprogram', hsame], _, hok, ?_⟩
  rw [← flatMap_keptTable (check_eq_ok (preconditions_eq_ok hpre).1).1]
  exact hfilter

/-- A program that starts a thread, calls a function which nobody defines, and
defines a generator. -/
def threading : Program where
  globals := [{ name := "state", ty := .int 64 }]
  functions := [
    { name := "log", ret := .void },
    { name := "pthread_create", ret := .int 32, body := some [
      { label := "entry", instrs := [.ret (some (.const (.int 32 0)))] }] },
    { name := "nondet_int", ret := .int 32, body := some [
      { label := "entry", instrs := [.ret (some (.const (.int 32 7)))] }] },
    { name := "main", ret := .int 32, body := some [
      { label := "entry", instrs := [
        .call ⟨some ⟨0⟩, .int 32, .func "nondet_int", []⟩,
        .call ⟨none, .void, .func "log", [.reg ⟨0⟩]⟩,
        .call ⟨none, .int 32, .cast (.func "pthread_create") .bytePtr, [.reg ⟨0⟩]⟩,
        .ret (some (.reg ⟨0⟩))] }] }]

theorem run_idempotent_threading :
    let c : Config := { stages := [.prepare, .deleteUndefined, .checkUnsupported] }
    (∃ report, (c.run threading).result = .ok report ∧
      report.symbols .removedCall = ["log"] ∧ report.symbols .strippedBody = ["nondet_int"] ∧
      report.symbols .initializedGlobal = ["state"]) ∧
    (c.run (c.run threading).program).program = (c.run threading).program ∧
      ∃ report', (c.run (c.run threading).program).result = .ok report' ∧
        report'.diagnostics.filter (·.kind ≠ .unsupportedCall) =
          [{ kind := .entryTableKept, symbol := "__ai_init_functions" }] := by
  intro c
  have hok : (c.run threading).result.toOption.map (fun report =>
      (report.symbols .removedCall, report.symbols .strippedBody,
        report.symbols .initializedGlobal)) =
      some (["log"], ["nondet_int"], ["state"]) := by decide +kernel
  cases h : (c.run threading).result with
  | error e =>
      rw [h] at hok
      cases hok
  | ok report =>
      rw [h] at hok
      injection hok with hok
      injection hok with hremoved hok
      injection hok with hstripped hzeroed
      exact ⟨⟨report, rfl, hremoved, hstripped, hzeroed⟩,
        run_idempotent rfl (by decide +kernel) h⟩

end Config

end ClosedWorld

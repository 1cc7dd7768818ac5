import ClosedWorld.Proofs.Stages

/-!
# Well-formed runs, and runs that fail

A run on a well-formed program leaves a well-formed program, wherever it stops.
So the check at its end has nothing left to find, and no stage meets a call that
leads nowhere. `Config.run_wellFormed` says this of every run, whatever is
configured.

A run that fails leaves the program as it was. Nearly everything that can go
wrong is looked at before the first stage, and of the stages only elimination
can still fail, before it changes anything. By then nothing has happened to the
program but what the stages ahead of elimination did to it, and of these only
preparation does anything. `Config.run_program_of_error` states it with this one
exception, which the usual order of stages rules out.
-/

namespace ClosedWorld

/-- The program does not hang together: the error is one that verification is
there to rule out. -/
def Error.isStructural : Error → Bool
  | .malformedProgram _ | .unnamedCallee _ | .danglingSymbol .. => true
  | _ => false

theorem Program.entryPlan_not_structural {p : Program} {c : Config} {e : Error}
    (h : p.entryPlan c = .error e) : e.isStructural = false := by
  rw [entryPlan] at h
  split at h
  · cases h; rfl
  · split at h
    · cases h; rfl
    · split at h
      · cases h; rfl
      · split at h <;> cases h
        rfl

namespace Config

/-! ## The checks ahead of the stages -/

theorem runs_iff {c : Config} {s : Stage} : c.runs s = true ↔ s ∈ c.stages := by
  rw [runs, List.contains_iff_mem]

theorem repeatedStage?_eq_none {seen ss : List Stage} (h : repeatedStage? seen ss = none) :
    ss.Nodup ∧ ∀ s ∈ ss, s ∉ seen := by
  induction ss generalizing seen with
  | nil => exact ⟨List.nodup_nil, fun s hs => absurd hs List.not_mem_nil⟩
  | cons s ss ih =>
      rw [repeatedStage?] at h
      split at h
      · cases h
      · next hs =>
          obtain ⟨hnd, hseen⟩ := ih h
          refine ⟨List.nodup_cons.mpr ⟨fun hmem => hseen s hmem List.mem_cons_self, hnd⟩, ?_⟩
          intro s' hs'
          rcases List.mem_cons.mp hs' with rfl | hs'
          · exact hs
          · exact fun hmem => hseen s' hs' (List.mem_cons_of_mem s hmem)

theorem repeatedStage?_of_nodup {seen ss : List Stage} (h : ss.Nodup) (hseen : ∀ s ∈ ss, s ∉ seen) :
    repeatedStage? seen ss = none := by
  induction ss generalizing seen with
  | nil => rfl
  | cons s ss ih =>
      obtain ⟨hs, hnd⟩ := List.nodup_cons.mp h
      rw [repeatedStage?, if_neg (hseen s List.mem_cons_self)]
      refine ih hnd fun s' hs' hmem => ?_
      rcases List.mem_cons.mp hmem with rfl | hmem
      · exact hs hs'
      · exact hseen s' (List.mem_cons_of_mem s hs') hmem

theorem check_eq_ok {c : Config} (h : c.check = .ok ()) :
    c.stages.Nodup ∧ (.prepare ∈ c.stages → c.entryFunction ≠ "" ∧ c.entryTable ≠ "") := by
  rw [check] at h
  split at h
  · cases h
  · next hentry =>
      split at h
      · cases h
      · next htable =>
          split at h
          · cases h
          · next hrepeated =>
              refine ⟨(repeatedStage?_eq_none hrepeated).1, fun hs => ?_⟩
              have hruns : c.runs .prepare = true := runs_iff.mpr hs
              exact ⟨fun h => hentry ⟨hruns, h⟩, fun h => htable ⟨hruns, h⟩⟩

theorem check_of_nodup {c : Config} (honce : c.stages.Nodup)
    (hnames : .prepare ∈ c.stages → c.entryFunction ≠ "" ∧ c.entryTable ≠ "") :
    c.check = .ok () := by
  rw [check, if_neg fun h => (hnames (runs_iff.mp h.1)).1 h.2,
    if_neg fun h => (hnames (runs_iff.mp h.1)).2 h.2,
    repeatedStage?_of_nodup honce fun _ _ => List.not_mem_nil]

variable {c : Config} {p : Program}

/-- The checks are made one after another, and those that are not asked for pass. -/
theorem preconditions_eq (c : Config) (p : Program) :
    c.preconditions p = (c.check.mapError .config >>= fun _ =>
      (if c.verifyInput then p.verify else .ok ()) >>= fun _ =>
        if c.runs .prepare then (p.entryPlan c).map fun _ => () else .ok ()) := by
  rw [preconditions]
  cases c.check <;> cases c.verifyInput <;> cases p.verify <;> cases c.runs .prepare <;>
    cases p.entryPlan c <;> rfl

theorem preconditions_eq_ok (h : c.preconditions p = .ok ()) :
    c.check = .ok () ∧ (c.verifyInput = true → p.verify = .ok ()) ∧
      (.prepare ∈ c.stages → ∃ plan, p.entryPlan c = .ok plan) := by
  rw [preconditions_eq] at h
  obtain ⟨_, hcheck, h⟩ := bind_eq_ok.mp h
  obtain ⟨_, hverify, hentry⟩ := bind_eq_ok.mp h
  refine ⟨?_, fun hin => ?_, fun hs => ?_⟩
  · cases hc : c.check with
    | ok => rfl
    | error cause => rw [hc] at hcheck; cases hcheck
  · rw [if_pos hin] at hverify
    exact hverify
  · rw [if_pos (runs_iff.mpr hs)] at hentry
    obtain ⟨plan, hplan, -⟩ := map_eq_ok.mp hentry
    exact ⟨plan, hplan⟩

theorem preconditions_of_ok (hcheck : c.check = .ok ())
    (hverify : c.verifyInput = true → p.verify = .ok ())
    (hplan : .prepare ∈ c.stages → ∃ plan, p.entryPlan c = .ok plan) :
    c.preconditions p = .ok () := by
  have hinput : (if c.verifyInput then p.verify else .ok ()) = .ok () := by
    split
    · next hin => exact hverify hin
    · rfl
  have hentry : (if c.runs .prepare then (p.entryPlan c).map fun _ => () else .ok ()) = .ok () := by
    split
    · next hruns =>
        obtain ⟨plan, hplan⟩ := hplan (runs_iff.mp hruns)
        rw [hplan]
        rfl
    · rfl
  rw [preconditions_eq, hcheck, hinput, hentry]
  rfl

/-- Why a run may fail before its first stage. -/
theorem preconditions_eq_error {e : Error} (h : c.preconditions p = .error e) :
    (∃ cause, e = .config cause) ∨ p.verify = .error e ∨ p.entryPlan c = .error e := by
  rw [preconditions_eq] at h
  rcases bind_eq_error.mp h with hcheck | ⟨_, -, h⟩
  · cases hc : c.check with
    | ok => rw [hc] at hcheck; cases hcheck
    | error cause =>
        rw [hc] at hcheck
        cases hcheck
        exact Or.inl ⟨cause, rfl⟩
  · rcases bind_eq_error.mp h with hverify | ⟨_, -, hentry⟩
    · split at hverify
      · exact Or.inr (Or.inl hverify)
      · cases hverify
    · split at hentry
      · exact Or.inr (Or.inr (map_eq_error.mp hentry))
      · cases hentry

theorem ready_of_preconditions (hp : p.WellFormed) (h : c.preconditions p = .ok ()) :
    c.Ready c.stages p := by
  obtain ⟨hcheck, -, hplan⟩ := preconditions_eq_ok h
  obtain ⟨honce, hnames⟩ := check_eq_ok hcheck
  exact ⟨hp, honce, fun hs => ⟨(hnames hs).2, hplan hs⟩⟩

/-! ## The parts of a run -/

theorem run_of_preconditions_error {e : Error} (h : c.preconditions p = .error e) :
    (c.run p).program = p ∧ (c.run p).result = .error e := by
  have hcheck : (Outcome.check p (c.preconditions p)).result = .error e := h
  rw [run, Outcome.program_andThen_error hcheck, Outcome.result_andThen_error hcheck]
  exact ⟨rfl, rfl⟩

theorem run_of_stages_error {e : Error} (h : c.preconditions p = .ok ())
    (hs : (c.runStages p c.stages).result = .error e) :
    (c.run p).program = (c.runStages p c.stages).program ∧ (c.run p).result = .error e := by
  have hcheck : (Outcome.check p (c.preconditions p)).result = .ok () := h
  rw [run, Outcome.program_andThen hcheck, Outcome.result_andThen hcheck, Outcome.check_program,
    Outcome.program_andThen_error hs, Outcome.result_andThen_error hs]
  exact ⟨rfl, rfl⟩

/-- When the stages are through, only the last check is left. -/
theorem run_of_stages_ok {b : Bool} (h : c.preconditions p = .ok ())
    (hs : (c.runStages p c.stages).result = .ok b) :
    (c.run p).program = (c.runStages p c.stages).program ∧
      (c.run p).result =
        (if c.verifyOutput then (c.runStages p c.stages).program.verify else .ok ()).map fun _ =>
          { diagnostics := (c.runStages p c.stages).diagnostics, modified := b } := by
  have hcheck : (Outcome.check p (c.preconditions p)).result = .ok () := h
  have hpre : Outcome.check p (c.preconditions p) = .check p (.ok ()) := by rw [h]
  refine ⟨?_, ?_⟩
  · rw [run, Outcome.program_andThen hcheck, Outcome.check_program, Outcome.program_andThen hs]
    rfl
  · have hevents : ((Outcome.check p (c.preconditions p)).andThen fun p _ =>
        (c.runStages p c.stages).andThen fun p changed =>
          Outcome.check p ((if c.verifyOutput then p.verify else .ok ()).map fun _ => changed)) =
        { program := (c.runStages p c.stages).program
          events := (c.runStages p c.stages).events
          result := (if c.verifyOutput then (c.runStages p c.stages).program.verify
            else .ok ()).map fun _ => b } := by
      rw [hpre, Outcome.andThen, Outcome.check_result]
      simp only [Outcome.andThen, hs, Outcome.check, List.nil_append, List.append_nil]
    rw [run, hevents]
    simp only []
    split
    · cases (c.runStages p c.stages).program.verify <;> rfl
    · rfl

theorem run_eq_ok {report : Report} (h : (c.run p).result = .ok report) :
    c.preconditions p = .ok () ∧ ∃ b, (c.runStages p c.stages).result = .ok b ∧
      (c.run p).program = (c.runStages p c.stages).program := by
  cases hpre : c.preconditions p with
  | error e =>
      rw [(run_of_preconditions_error hpre).2] at h
      cases h
  | ok =>
      cases hs : (c.runStages p c.stages).result with
      | error e =>
          rw [(run_of_stages_error hpre hs).2] at h
          cases h
      | ok b => exact ⟨rfl, b, rfl, (run_of_stages_ok hpre hs).1⟩

/-- A run goes through exactly if its checks and its stages do, and it reports
what the stages report. -/
theorem run_eq_ok_iff {report : Report} :
    (c.run p).result = .ok report ↔
      c.preconditions p = .ok () ∧ ∃ b, (c.runStages p c.stages).result = .ok b ∧
        (c.verifyOutput = true → (c.runStages p c.stages).program.verify = .ok ()) ∧
        report = { diagnostics := (c.runStages p c.stages).diagnostics, modified := b } := by
  constructor
  · intro h
    obtain ⟨hpre, b, hs, -⟩ := run_eq_ok h
    rw [(run_of_stages_ok hpre hs).2] at h
    obtain ⟨_, hverify, rfl⟩ := map_eq_ok.mp h
    refine ⟨hpre, b, hs, fun hout => ?_, rfl⟩
    rw [if_pos hout] at hverify
    exact hverify
  · rintro ⟨hpre, b, hs, hverify, rfl⟩
    have hout : (if c.verifyOutput then (c.runStages p c.stages).program.verify else .ok ()) =
        .ok () := by
      split
      · next hout => exact hverify hout
      · rfl
    rw [(run_of_stages_ok hpre hs).2, hout]
    rfl

/-- What its stages keep, also one that fails, a run keeps. -/
theorem run_preserves_of_stages {P : Program → Prop}
    (hstep : ∀ s ∈ c.stages, ∀ p, P p → P (c.runStage p s).program) (h : P p) :
    P (c.run p).program := by
  have hstages : P (c.runStages p c.stages).program := runStages_preserves hstep h
  cases hpre : c.preconditions p with
  | error e =>
      rw [(run_of_preconditions_error hpre).1]
      exact h
  | ok =>
      cases hs : (c.runStages p c.stages).result with
      | error e =>
          rw [(run_of_stages_error hpre hs).1]
          exact hstages
      | ok b =>
          rw [(run_of_stages_ok hpre hs).1]
          exact hstages

/-- What elimination and preparation keep, a run keeps, also one that fails. -/
theorem run_preserves {P : Program → Prop}
    (heliminate : ∀ p, P p → P (p.eliminate c.trustList))
    (hprepared : ∀ p plan, P p → p.entryPlan c = .ok plan → P (p.prepared c plan)) (h : P p) :
    P (c.run p).program := by
  refine run_preserves_of_stages (fun s _ p hp => ?_) h
  obtain hprogram | ⟨-, hprogram⟩ | ⟨-, plan, hplan, hprogram⟩ := c.runStage_program_cases p s
  · rw [hprogram]
    exact hp
  · rw [hprogram]
    exact heliminate p hp
  · rw [hprogram]
    exact hprepared p plan hp hplan

/-! ## Stages that fail -/

/-- Of the stages of a run only elimination fails, and it fails before it changes
the program. -/
theorem Ready.runStages_eq_error {ss : List Stage} (h : c.Ready ss p) {e : Error}
    (he : (c.runStages p ss).result = .error e) :
    ∃ before after b, ss = before ++ .deleteUndefined :: after ∧
      (c.runStages p before).result = .ok b ∧
      (c.runStage (c.runStages p before).program .deleteUndefined).result = .error e ∧
      (∃ symbol ty, e = .noZeroValue symbol ty) ∧
      (c.runStages p ss).program = (c.runStages p before).program ∧
      (c.runStages p before).program.WellFormed := by
  obtain ⟨before, s, after, b, rfl, hb, hs, hprogram⟩ := Config.runStages_eq_error he
  have hready : c.Ready (s :: after) (c.runStages p before).program := h.runStages hb
  rcases hready.runStage with ⟨b', hok, -⟩ | ⟨rfl, symbol, ty, hfail⟩
  · rw [hs] at hok
    cases hok
  · have hkind : e = .noZeroValue symbol ty := by
      rw [hfail] at hs
      cases hs
      rfl
    rw [hfail] at hprogram
    exact ⟨before, after, b, rfl, hb, hs, ⟨symbol, ty, hkind⟩, hprogram, hready.wellFormed⟩

theorem Ready.runStages_wellFormed {ss : List Stage} (h : c.Ready ss p) :
    (c.runStages p ss).program.WellFormed := by
  cases hresult : (c.runStages p ss).result with
  | ok b =>
      rw [← List.append_nil ss] at h
      exact (h.runStages hresult).wellFormed
  | error e =>
      obtain ⟨before, -, -, -, -, -, -, hprogram, hwf⟩ := h.runStages_eq_error hresult
      rw [hprogram]
      exact hwf

/-! ## Runs on well-formed programs -/

theorem run_program_wellFormed (hp : p.WellFormed) : (c.run p).program.WellFormed := by
  cases hpre : c.preconditions p with
  | error e =>
      rw [(run_of_preconditions_error hpre).1]
      exact hp
  | ok =>
      have hwf := (ready_of_preconditions hp hpre).runStages_wellFormed
      cases hs : (c.runStages p c.stages).result with
      | error e =>
          rw [(run_of_stages_error hpre hs).1]
          exact hwf
      | ok b =>
          rw [(run_of_stages_ok hpre hs).1]
          exact hwf

/-- Where the stages are through, so is the run. -/
theorem run_result_of_stages_ok (hp : p.WellFormed) (h : c.preconditions p = .ok ()) {b : Bool}
    (hs : (c.runStages p c.stages).result = .ok b) : ∃ report, (c.run p).result = .ok report := by
  have hverify : (c.runStages p c.stages).program.verify = .ok () :=
    Program.verify_eq_ok_iff.mpr (ready_of_preconditions hp h).runStages_wellFormed
  rw [(run_of_stages_ok h hs).2, hverify, ite_self]
  exact ⟨_, rfl⟩

theorem run_error_not_structural (hp : p.WellFormed) {e : Error}
    (he : (c.run p).result = .error e) : e.isStructural = false := by
  cases hpre : c.preconditions p with
  | error e' =>
      rw [(run_of_preconditions_error hpre).2] at he
      cases he
      rcases preconditions_eq_error hpre with ⟨cause, rfl⟩ | hverify | hplan
      · rfl
      · rw [Program.verify_eq_ok_iff.mpr hp] at hverify
        cases hverify
      · exact Program.entryPlan_not_structural hplan
  | ok =>
      cases hs : (c.runStages p c.stages).result with
      | error e' =>
          rw [(run_of_stages_error hpre hs).2] at he
          cases he
          obtain ⟨-, -, -, -, -, -, ⟨symbol, ty, rfl⟩, -⟩ :=
            (ready_of_preconditions hp hpre).runStages_eq_error hs
          rfl
      | ok b =>
          obtain ⟨report, hreport⟩ := run_result_of_stages_ok hp hpre hs
          rw [hreport] at he
          cases he

/-- **Well-formedness is an invariant of runs.** Whatever is configured, a run on
a program that passes verification leaves one that passes it, also where the run
fails. It never fails because the program is malformed, and no call in it is
found to lead nowhere. -/
theorem run_wellFormed (hp : p.verify = .ok ()) :
    (c.run p).program.verify = .ok () ∧
      (∀ found, (c.run p).result ≠ .error (.malformedProgram found)) ∧
      (∀ caller, (c.run p).result ≠ .error (.unnamedCallee caller)) ∧
      ∀ caller name, (c.run p).result ≠ .error (.danglingSymbol caller name) := by
  have hwf : p.WellFormed := Program.verify_eq_ok_iff.mp hp
  have hkind : ∀ e : Error, e.isStructural = true → (c.run p).result ≠ .error e := by
    intro e he herror
    rw [run_error_not_structural hwf herror] at he
    cases he
  exact ⟨Program.verify_eq_ok_iff.mpr (run_program_wellFormed hwf), fun _ => hkind _ rfl,
    fun _ => hkind _ rfl, fun _ _ => hkind _ rfl⟩

theorem run_wellFormed_drawing :
    Program.drawing.verify = .ok () ∧
      (run { stages := [.prepare, .deleteUndefined] } Program.drawing).program.verify = .ok () := by
  have h : Program.drawing.verify = .ok () := rfl
  exact ⟨h, (run_wellFormed h).1⟩

/-! ## Runs that fail -/

/-- The run comes as far as stage `s`, and that stage fails. -/
def FailsAt (c : Config) (p : Program) (s : Stage) (e : Error) : Prop :=
  c.preconditions p = .ok () ∧
    ∃ before after b, c.stages = before ++ s :: after ∧
      (c.runStages p before).result = .ok b ∧
      (c.runStage (c.runStages p before).program s).result = .error e

theorem wellFormed_of_preconditions (hin : c.verifyInput = true)
    (h : c.preconditions p = .ok ()) : p.WellFormed :=
  Program.verify_eq_ok_iff.mp ((preconditions_eq_ok h).2.1 hin)

theorem FailsAt.eq_deleteUndefined (hin : c.verifyInput = true) {s : Stage} {e : Error}
    (h : c.FailsAt p s e) : s = .deleteUndefined := by
  obtain ⟨hpre, before, after, b, hsplit, hb, hs⟩ := h
  have hready := ready_of_preconditions (wellFormed_of_preconditions hin hpre) hpre
  rw [hsplit] at hready
  rcases (hready.runStages hb).runStage with ⟨b', hok, -⟩ | ⟨hstage, -⟩
  · rw [hs] at hok
    cases hok
  · exact hstage

/-- Elimination finds no zero, and preparation came before it. -/
def FailsAfterPreparing (c : Config) (p : Program) (e : Error) : Prop :=
  [.prepare, .deleteUndefined].Sublist c.stages ∧ c.FailsAt p .deleteUndefined e ∧
    ∃ symbol ty, e = .noZeroValue symbol ty

theorem prepare_mem_iff {before after : List Stage}
    (h : (before ++ .deleteUndefined :: after).Nodup) :
    .prepare ∈ before ↔
      [.prepare, .deleteUndefined].Sublist (before ++ .deleteUndefined :: after) := by
  constructor
  · intro hmem
    have hfirst : [Stage.prepare].Sublist before := List.singleton_sublist.mpr hmem
    exact hfirst.append (List.singleton_sublist.mpr List.mem_cons_self)
  · intro hsub
    obtain ⟨l₁, l₂, heq, h₁, h₂⟩ := List.sublist_append_iff.mp hsub
    cases l₁ with
    | cons s l₁ =>
        rw [List.cons_append, List.cons.injEq] at heq
        rw [heq.1]
        exact h₁.subset List.mem_cons_self
    | nil =>
        rw [List.nil_append] at heq
        subst heq
        -- Both would have to come after the only elimination there is.
        have hafter : [Stage.prepare, .deleteUndefined].Sublist after := by
          cases h₂ with
          | cons _ h => exact h
        have hnd := (List.nodup_append.mp h).2.1
        exact absurd (hafter.subset (List.mem_cons_of_mem _ List.mem_cons_self))
          (List.nodup_cons.mp hnd).1

/-- A run whose stages fail has failed at elimination, and leaves what
preparation has made of the program, if that came first. -/
theorem run_of_failing_stages (hp : p.WellFormed) (hpre : c.preconditions p = .ok ()) {e : Error}
    (hs : (c.runStages p c.stages).result = .error e) :
    c.FailsAt p .deleteUndefined e ∧ (∃ symbol ty, e = .noZeroValue symbol ty) ∧
      (c.run p).program = if [.prepare, .deleteUndefined].Sublist c.stages
        then (p.prepareEntry c).program else p := by
  have hready := ready_of_preconditions hp hpre
  obtain ⟨before, after, b, hsplit, hb, hfail, hkind, hprogram, -⟩ := hready.runStages_eq_error hs
  refine ⟨⟨hpre, before, after, b, hsplit, hb, hfail⟩, hkind, ?_⟩
  have honce := hready.once
  rw [hsplit] at hready honce
  have hno : .deleteUndefined ∉ before := fun hmem =>
    (List.nodup_append.mp honce).2.2 _ hmem _ List.mem_cons_self rfl
  have hbefore : c.Ready before p :=
    ⟨hp, (List.nodup_append.mp honce).1, fun hmem => hready.entry (List.mem_append_left _ hmem)⟩
  rw [(run_of_stages_error hpre hs).1, hprogram, hbefore.runStages_program hno, hsplit]
  simp only [prepare_mem_iff honce]

/-- **A run that fails leaves the program as it was**, but for one exception:
where elimination fails after preparation, what preparation alone makes of the
program is left. The usual order of stages is not of this kind. Once the first
checks have passed, no stage but elimination fails, and neither does the last
check. -/
theorem run_program_of_error (hin : c.verifyInput = true) :
    (∀ e, (c.run p).result = .error e →
      (¬ c.FailsAfterPreparing p e → (c.run p).program = p) ∧
      (c.FailsAfterPreparing p e →
        (p.prepareEntry c).result = .ok true ∧ (c.run p).program = (p.prepareEntry c).program) ∧
      (c.stages = Stage.all → (c.run p).program = p)) ∧
    (∀ s e, c.FailsAt p s e → s = .deleteUndefined) ∧
    (c.preconditions p = .ok () → ∀ b, (c.runStages p c.stages).result = .ok b →
      (c.runStages p c.stages).program.verify = .ok ()) := by
  refine ⟨fun e he => ?_, fun s e h => h.eq_deleteUndefined hin, fun hpre b _ => ?_⟩
  · cases hpre : c.preconditions p with
    | error e' =>
        have hprogram := (run_of_preconditions_error hpre).1
        refine ⟨fun _ => hprogram, fun hafter => ?_, fun _ => hprogram⟩
        have hok := hafter.2.1.1
        rw [hpre] at hok
        cases hok
    | ok =>
        have hp := wellFormed_of_preconditions hin hpre
        cases hs : (c.runStages p c.stages).result with
        | ok b =>
            obtain ⟨report, hreport⟩ := run_result_of_stages_ok hp hpre hs
            rw [hreport] at he
            cases he
        | error e' =>
            rw [(run_of_stages_error hpre hs).2] at he
            cases he
            obtain ⟨hfails, hkind, hprogram⟩ := run_of_failing_stages hp hpre hs
            rw [hprogram]
            refine ⟨fun hnot => ?_, fun hafter => ?_, fun hall => ?_⟩
            · exact if_neg fun hsub => hnot ⟨hsub, hfails, hkind⟩
            · have hmem : .prepare ∈ c.stages := hafter.1.subset List.mem_cons_self
              obtain ⟨-, plan, hplan⟩ := (ready_of_preconditions hp hpre).entry hmem
              exact ⟨(Program.prepareEntry_of_ok hplan).1, if_pos hafter.1⟩
            · rw [hall]
              exact if_neg (by decide)
  · have hp := wellFormed_of_preconditions hin hpre
    exact Program.verify_eq_ok_iff.mpr (ready_of_preconditions hp hpre).runStages_wellFormed

/-- A program in which a call to an undefined function binds a result of a type
that has no zero. -/
def signing : Program where
  functions := [
    { name := "sign", ret := .func .void [] false },
    { name := "main", ret := .int 32, body := some [
      { label := "entry", instrs := [
        .call ⟨some ⟨0⟩, .func .void [] false, .func "sign", []⟩,
        .ret none] }] }]

theorem run_program_of_error_signing :
    let c : Config := { trusted := [], stripped := [], stages := [.prepare, .deleteUndefined] }
    (c.run signing).result = .error (.noZeroValue "sign" (.func .void [] false)) ∧
      c.FailsAfterPreparing signing (.noZeroValue "sign" (.func .void [] false)) ∧
      (c.run signing).program = (signing.prepareEntry c).program ∧
      (c.run signing).program.globals = [c.entryTableGlobal] := by
  intro c
  have he : (c.run signing).result = .error (.noZeroValue "sign" (.func .void [] false)) := rfl
  have hafter : c.FailsAfterPreparing signing (.noZeroValue "sign" (.func .void [] false)) :=
    ⟨List.Sublist.refl _, ⟨rfl, [.prepare], [], true, rfl, rfl, rfl⟩, _, _, rfl⟩
  have hprogram := (((run_program_of_error (p := signing) (c := c) rfl).1 _ he).2.1 hafter).2
  exact ⟨he, hafter, hprogram, hprogram ▸ rfl⟩

end Config

end ClosedWorld

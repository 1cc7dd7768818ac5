import ClosedWorld.Proofs.Preservation
import ClosedWorld.Run

/-!
# Stages, one after another

A run carries out its stages on what the stages before have left, so whatever
the checks at its beginning have established is of use only as far as the stages
keep it. This file names what is needed (`Config.Ready`): the program is well
formed, no stage comes twice, and if the entry is still to be prepared its check
would pass. Each stage succeeds and leaves what the rest needs, with a single
exception. Elimination may lack a zero, and then it has changed nothing.

The condition on the entry is the one that looks fragile, since it speaks of the
program as it was when the run began. It holds on because only preparation
changes what the check looks at, and no stage comes twice.
-/

namespace ClosedWorld

/-! ## The stages one by one -/

namespace Program

theorem checkUnsupported_program (p : Program) (c : Config) :
    (p.checkUnsupported c).program = p := by
  rw [checkUnsupported]
  split <;> rfl

theorem unsupported?_eq_error_iff {p : Program} {names : List String} {s : CallSite} {e : Error} :
    p.unsupported? names s = .error e ↔ p.Astray s.caller s.call e := by
  rw [← target?_eq_error_iff, unsupported?, subject?]
  cases p.target? s.caller s.call with
  | error e' => exact Iff.of_eq (by simp only [bind, Except.bind, Except.error.injEq])
  | ok o =>
      refine ⟨fun h => ?_, nofun⟩
      simp only [bind, Except.bind, pure, Except.pure] at h
      split at h
      · split at h <;> cases h
      · cases h

/-- The scan for unsupported calls goes through if, and only if, no call leads
nowhere. -/
theorem checkUnsupported_eq_ok {p : Program} {c : Config} {b : Bool} :
    (p.checkUnsupported c).result = .ok b ↔ b = false ∧ p.Resolved := by
  rw [checkUnsupported]
  cases hscan : p.unsupportedCalls c.unsupported with
  | ok found =>
      refine ⟨fun h => ⟨?_, fun f hf call hcall => ?_⟩, fun h => h.1 ▸ rfl⟩
      · cases h
        rfl
      obtain ⟨s, hs, -, rfl⟩ := exists_callSite hf hcall
      obtain ⟨o, ho⟩ := (filterMapM_eq_ok hscan).1 s hs
      rw [unsupported?, subject?] at ho
      obtain ⟨_, ho, -⟩ := bind_eq_ok.mp ho
      obtain ⟨target, ht, -⟩ := bind_eq_ok.mp ho
      exact (exists_target?_iff s.caller).mp ⟨target, ht⟩
  | error e =>
      refine ⟨fun h => (nomatch h), fun ⟨_, hp⟩ => ?_⟩
      rw [unsupportedCalls, ← error?_eq_some_iff, error?_filterMapM] at hscan
      obtain ⟨s, hs, he⟩ := List.exists_of_findSome?_eq_some hscan
      obtain ⟨f, hf, hcaller, hcall⟩ := mem_callSites hs
      rw [error?_eq_some_iff, unsupported?_eq_error_iff, hcaller] at he
      exact absurd he (hp.no_astray hf hcall e)

/-- On a well-formed program elimination can fail for one reason only. -/
theorem WellFormed.deleteUndefined {p : Program} (hp : p.WellFormed) (c : Config) :
    (∃ symbol ty, p.deleteUndefined c = .check p (.error (.noZeroValue symbol ty))) ∨
      ∃ b, (p.deleteUndefined c).result = .ok b ∧
        (p.deleteUndefined c).program = p.eliminate c.trustList ∧
        (p.eliminate c.trustList).WellFormed := by
  rcases p.deleteUndefined_cases c with ⟨e, hplan, hfail⟩ | ⟨b, hb, hprogram, hcalls⟩
  · obtain ⟨f, hf, call, hcall, hfault⟩ := removalPlan_eq_error hplan
    cases hfault with
    | astray hastray => exact absurd hastray (hp.resolved.no_astray hf hcall e)
    | noZero => exact Or.inl ⟨_, _, hfail⟩
  · exact Or.inr ⟨b, hb, hprogram, hp.eliminate fun f hf call hcall => (hcalls f hf call hcall).2⟩

/-- The check of the entry looks at globals and at names, and elimination
touches neither. -/
theorem entryPlan_eliminate (p : Program) (t : TrustList) (c : Config) :
    (p.eliminate t).entryPlan c = p.entryPlan c := by
  have hglobal : ∀ name, (p.eliminate t).global? name = p.global? name := fun _ => rfl
  have hglobals : (p.eliminate t).globals = p.globals := rfl
  simp only [entryPlan, function?_eliminate, hglobal, hglobals, Option.isNone_map, Option.isSome_map]

end Program

/-- What a stage that succeeds has found, and what it leaves. -/
theorem Config.runStage_eq_ok {c : Config} {p : Program} {s : Stage} {b : Bool}
    (h : (c.runStage p s).result = .ok b) :
    (s = .checkUnsupported ∧ p.Resolved ∧ (c.runStage p s).program = p) ∨
      (s = .deleteUndefined ∧ p.Resolved ∧
        (c.runStage p s).program = p.eliminate c.trustList) ∨
      (s = .prepare ∧ ∃ plan, p.entryPlan c = .ok plan ∧
        (c.runStage p s).program = p.prepared c plan) := by
  cases s with
  | checkUnsupported =>
      exact Or.inl ⟨rfl, (Program.checkUnsupported_eq_ok.mp h).2, p.checkUnsupported_program c⟩
  | deleteUndefined =>
      rw [runStage] at h
      exact Or.inr (Or.inl ⟨rfl, (Program.deleteUndefined_eq_ok.mp h).1.resolved,
        Program.deleteUndefined_program h⟩)
  | prepare =>
      rw [runStage] at h
      obtain ⟨-, plan, hplan⟩ := Program.prepareEntry_eq_ok.mp h
      exact Or.inr (Or.inr ⟨rfl, plan, hplan, (Program.prepareEntry_of_ok hplan).2⟩)

/-- What a stage leaves, also one that fails. -/
theorem Config.runStage_program_cases (c : Config) (p : Program) (s : Stage) :
    (c.runStage p s).program = p ∨
      (s = .deleteUndefined ∧ (c.runStage p s).program = p.eliminate c.trustList) ∨
      (s = .prepare ∧ ∃ plan, p.entryPlan c = .ok plan ∧
        (c.runStage p s).program = p.prepared c plan) := by
  cases s with
  | checkUnsupported => exact Or.inl (p.checkUnsupported_program c)
  | deleteUndefined =>
      rw [runStage]
      rcases p.deleteUndefined_cases c with ⟨e, -, hfail⟩ | ⟨-, -, hprogram, -⟩
      · rw [hfail]
        exact Or.inl rfl
      · exact Or.inr (Or.inl ⟨rfl, hprogram⟩)
  | prepare =>
      rw [runStage]
      cases hplan : p.entryPlan c with
      | error e =>
          rw [Program.prepareEntry_of_error hplan]
          exact Or.inl rfl
      | ok plan => exact Or.inr (Or.inr ⟨rfl, plan, rfl, (Program.prepareEntry_of_ok hplan).2⟩)

/-! ## What the stages need and keep -/

namespace Config

/-- What a program must fulfil for stages to be carried out on it. -/
structure Ready (c : Config) (stages : List Stage) (p : Program) : Prop where
  wellFormed : p.WellFormed
  once : stages.Nodup
  /-- The entry table has a name, and preparation would pass its check. -/
  entry : .prepare ∈ stages → c.entryTable ≠ "" ∧ ∃ plan, p.entryPlan c = .ok plan

/-- What one stage does to a program that is ready for it and for the rest. -/
theorem Ready.runStage {c : Config} {p : Program} {s : Stage} {ss : List Stage}
    (h : c.Ready (s :: ss) p) :
    (∃ b, (c.runStage p s).result = .ok b ∧ c.Ready ss (c.runStage p s).program) ∨
      (s = .deleteUndefined ∧
        ∃ symbol ty, c.runStage p s = .check p (.error (.noZeroValue symbol ty))) := by
  have hrest : c.Ready ss p :=
    ⟨h.wellFormed, (List.nodup_cons.mp h.once).2, fun hs => h.entry (List.mem_cons_of_mem s hs)⟩
  cases s with
  | checkUnsupported =>
      refine Or.inl ⟨false, Program.checkUnsupported_eq_ok.mpr ⟨rfl, h.wellFormed.resolved⟩, ?_⟩
      rw [Config.runStage, Program.checkUnsupported_program]
      exact hrest
  | deleteUndefined =>
      rcases h.wellFormed.deleteUndefined c with hfail | ⟨b, hb, hprogram, hwf⟩
      · exact Or.inr ⟨rfl, hfail⟩
      · refine Or.inl ⟨b, hb, ?_⟩
        rw [Config.runStage, hprogram]
        refine ⟨hwf, hrest.once, fun hs => ?_⟩
        rw [Program.entryPlan_eliminate]
        exact hrest.entry hs
  | prepare =>
      obtain ⟨hname, plan, hplan⟩ := h.entry List.mem_cons_self
      obtain ⟨hok, hprogram⟩ := Program.prepareEntry_of_ok hplan
      refine Or.inl ⟨true, hok, ?_⟩
      rw [Config.runStage, hprogram]
      -- Preparation does change what its check looks at, but it is not in the rest.
      exact ⟨h.wellFormed.prepared hplan hname, hrest.once,
        fun hs => absurd hs (List.nodup_cons.mp h.once).1⟩

theorem Ready.runStage_of_ok {c : Config} {p : Program} {s : Stage} {ss : List Stage}
    (h : c.Ready (s :: ss) p) {b : Bool} (hb : (c.runStage p s).result = .ok b) :
    c.Ready ss (c.runStage p s).program := by
  rcases h.runStage with ⟨-, -, hready⟩ | ⟨-, symbol, ty, hfail⟩
  · exact hready
  · rw [hfail] at hb
    cases hb

/-! ## Stage after stage -/

theorem runNoted_result (c : Config) (p : Program) (s : Stage) :
    (c.runNoted p s).result = (c.runStage p s).result := by
  rw [runNoted, Outcome.noting]
  cases h : (c.runStage p s).result with
  | ok b => rw [Outcome.result_andThen h]
  | error e => rw [Outcome.result_andThen_error h]

theorem runNoted_program (c : Config) (p : Program) (s : Stage) :
    (c.runNoted p s).program = (c.runStage p s).program := by
  rw [runNoted, Outcome.noting]
  cases h : (c.runStage p s).result with
  | ok b => rw [Outcome.program_andThen h]
  | error e => rw [Outcome.program_andThen_error h]

section Sequences

variable {c : Config} {p : Program} {s : Stage} {ss : List Stage}

/-- Stages in a row can be carried out in two portions. -/
theorem runStages_append (c : Config) (p : Program) (ss ss' : List Stage) :
    c.runStages p (ss ++ ss') =
      (c.runStages p ss).andThen fun p first =>
        (c.runStages p ss').andThen fun p rest => { program := p, result := .ok (first || rest) } := by
  induction ss generalizing p with
  | nil =>
      rw [List.nil_append, runStages, Outcome.ok_andThen]
      exact (c.runStages p ss').andThen_ok.symm
  | cons s ss ih =>
      rw [List.cons_append, runStages, runStages]
      simp only [ih, Outcome.andThen_assoc, Outcome.ok_andThen, Bool.or_assoc]

theorem runStages_append_eq_ok {ss' : List Stage} {b : Bool} :
    (c.runStages p (ss ++ ss')).result = .ok b ↔
      ∃ b₁ b₂, (c.runStages p ss).result = .ok b₁ ∧
        (c.runStages (c.runStages p ss).program ss').result = .ok b₂ ∧ b = (b₁ || b₂) := by
  rw [runStages_append]
  cases h₁ : (c.runStages p ss).result with
  | error e =>
      rw [Outcome.result_andThen_error h₁]
      exact ⟨nofun, nofun⟩
  | ok b₁ =>
      rw [Outcome.result_andThen h₁]
      cases h₂ : (c.runStages (c.runStages p ss).program ss').result with
      | error e =>
          rw [Outcome.result_andThen_error h₂]
          exact ⟨nofun, nofun⟩
      | ok b₂ =>
          rw [Outcome.result_andThen h₂]
          simp only [Except.ok.injEq, exists_and_left, exists_eq_left', eq_comm]

/-- What the stages make of a program begins with what the first one makes of it. -/
theorem runStages_cons_of_ok (ss : List Stage) {b : Bool} (h : (c.runStage p s).result = .ok b) :
    (c.runStages p (s :: ss)).program = (c.runStages (c.runStage p s).program ss).program ∧
      (c.runStages p (s :: ss)).result =
        (c.runStages (c.runStage p s).program ss).result.map (b || ·) := by
  have hnoted : (c.runNoted p s).result = .ok b := by rw [runNoted_result, h]
  rw [runStages, Outcome.program_andThen hnoted, Outcome.result_andThen hnoted, runNoted_program]
  cases hrest : (c.runStages (c.runStage p s).program ss).result with
  | ok b' =>
      rw [Outcome.program_andThen hrest, Outcome.result_andThen hrest]
      exact ⟨rfl, rfl⟩
  | error e =>
      rw [Outcome.program_andThen_error hrest, Outcome.result_andThen_error hrest]
      exact ⟨rfl, rfl⟩

theorem runStages_cons_of_error (ss : List Stage) {e : Error} (h : (c.runStage p s).result = .error e) :
    (c.runStages p (s :: ss)).program = (c.runStage p s).program ∧
      (c.runStages p (s :: ss)).result = .error e := by
  have hnoted : (c.runNoted p s).result = .error e := by rw [runNoted_result, h]
  rw [runStages, Outcome.program_andThen_error hnoted, Outcome.result_andThen_error hnoted,
    runNoted_program]
  exact ⟨rfl, rfl⟩

theorem runStages_cons_eq_ok {b : Bool} (h : (c.runStages p (s :: ss)).result = .ok b) :
    ∃ b₁ b₂, (c.runStage p s).result = .ok b₁ ∧
      (c.runStages (c.runStage p s).program ss).result = .ok b₂ ∧
      (c.runStages p (s :: ss)).program = (c.runStages (c.runStage p s).program ss).program := by
  cases hs : (c.runStage p s).result with
  | error e =>
      rw [(runStages_cons_of_error ss hs).2] at h
      cases h
  | ok b₁ =>
      obtain ⟨hprogram, hresult⟩ := runStages_cons_of_ok ss hs
      cases hr : (c.runStages (c.runStage p s).program ss).result with
      | error e =>
          rw [hresult, hr] at h
          cases h
      | ok b₂ => exact ⟨b₁, b₂, rfl, rfl, hprogram⟩

/-- What holds of the stages to come and of the program, and is passed on by each
stage to the rest, holds when no stage is left. -/
theorem runStages_induction {I : List Stage → Program → Prop}
    (hstep : ∀ s ss p b, I (s :: ss) p → (c.runStage p s).result = .ok b →
      I ss (c.runStage p s).program)
    (h : I ss p) {b : Bool} (hb : (c.runStages p ss).result = .ok b) :
    I [] (c.runStages p ss).program := by
  induction ss generalizing p b with
  | nil => exact h
  | cons s ss ih =>
      obtain ⟨b₁, b₂, hs, hrest, hprogram⟩ := runStages_cons_eq_ok hb
      rw [hprogram]
      exact ih (hstep s ss p b₁ h hs) hrest

/-- What one stage establishes and every stage keeps holds after the stages, if
that one is among them or if it held before. -/
theorem runStages_establishes {P : Program → Prop} {s' : Stage}
    (hstep : ∀ s p b, s' = s ∨ P p → (c.runStage p s).result = .ok b → P (c.runStage p s).program)
    (h : s' ∈ ss ∨ P p) {b : Bool} (hb : (c.runStages p ss).result = .ok b) :
    P (c.runStages p ss).program := by
  have hend := runStages_induction (I := fun ss p => s' ∈ ss ∨ P p) ?_ h hb
  · exact hend.resolve_left List.not_mem_nil
  · intro s ss p b h hs
    rcases h with hmem | hp
    · rcases List.mem_cons.mp hmem with hfirst | hmem
      · exact Or.inr (hstep s p b (Or.inl hfirst) hs)
      · exact Or.inl hmem
    · exact Or.inr (hstep s p b (Or.inr hp) hs)

/-- Stages that fail fail at one of them, and leave the program as that one
leaves it. -/
theorem runStages_eq_error {e : Error} (h : (c.runStages p ss).result = .error e) :
    ∃ before s after b, ss = before ++ s :: after ∧ (c.runStages p before).result = .ok b ∧
      (c.runStage (c.runStages p before).program s).result = .error e ∧
      (c.runStages p ss).program = (c.runStage (c.runStages p before).program s).program := by
  induction ss generalizing p with
  | nil => cases h
  | cons s ss ih =>
      cases hs : (c.runStage p s).result with
      | error e' =>
          obtain ⟨hprogram, hresult⟩ := runStages_cons_of_error ss hs
          rw [hresult] at h
          cases h
          exact ⟨[], s, ss, false, rfl, rfl, hs, hprogram⟩
      | ok b =>
          obtain ⟨hprogram, hresult⟩ := runStages_cons_of_ok ss hs
          have hrest : (c.runStages (c.runStage p s).program ss).result = .error e := by
            cases hr : (c.runStages (c.runStage p s).program ss).result with
            | ok b' => rw [hresult, hr] at h; cases h
            | error e' => rw [hresult, hr] at h; exact h
          obtain ⟨before, s', after, b', hsplit, hbefore, hfail, hlast⟩ := ih hrest
          obtain ⟨hprogram', hresult'⟩ := runStages_cons_of_ok before hs
          refine ⟨s :: before, s', after, b || b', by rw [hsplit, List.cons_append], ?_, ?_, ?_⟩
          · rw [hresult', hbefore]
            rfl
          · rw [hprogram']
            exact hfail
          · rw [hprogram, hprogram']
            exact hlast

/-- What every stage keeps, also one that fails, holds wherever the stages end. -/
theorem runStages_preserves {P : Program → Prop}
    (hstep : ∀ s ∈ ss, ∀ p, P p → P (c.runStage p s).program) (h : P p) :
    P (c.runStages p ss).program := by
  induction ss generalizing p with
  | nil => exact h
  | cons s ss ih =>
      have hfirst : P (c.runStage p s).program := hstep s List.mem_cons_self p h
      cases hs : (c.runStage p s).result with
      | error e =>
          rw [(runStages_cons_of_error ss hs).1]
          exact hfirst
      | ok b =>
          rw [(runStages_cons_of_ok ss hs).1]
          exact ih (fun s' hs' => hstep s' (List.mem_cons_of_mem s hs')) hfirst

/-- Stages that succeed leave the program ready for what follows them. -/
theorem Ready.runStages {after : List Stage} (h : c.Ready (ss ++ after) p) {b : Bool}
    (hb : (c.runStages p ss).result = .ok b) : c.Ready after (c.runStages p ss).program :=
  runStages_induction (I := fun ss p => c.Ready (ss ++ after) p)
    (fun _ _ _ _ h hs => h.runStage_of_ok hs) h hb

/-- Without elimination, what stages make of a program is what preparation alone
makes of it, if that is among them. -/
theorem Ready.runStages_program (h : c.Ready ss p) (hno : .deleteUndefined ∉ ss) :
    (c.runStages p ss).program = if .prepare ∈ ss then (p.prepareEntry c).program else p := by
  induction ss generalizing p with
  | nil => rfl
  | cons s ss ih =>
      have hno' : .deleteUndefined ∉ ss := fun hs => hno (List.mem_cons_of_mem s hs)
      rcases h.runStage with ⟨b, hs, hready⟩ | ⟨rfl, -⟩
      · rw [(runStages_cons_of_ok ss hs).1, ih hready hno']
        cases s with
        | checkUnsupported =>
            rw [Config.runStage, Program.checkUnsupported_program]
            simp only [List.mem_cons, reduceCtorEq, false_or]
        | deleteUndefined => exact absurd List.mem_cons_self hno
        | prepare =>
            rw [if_neg (List.nodup_cons.mp h.once).1, if_pos List.mem_cons_self]
            rfl
      · exact absurd List.mem_cons_self hno

end Sequences

end Config

end ClosedWorld

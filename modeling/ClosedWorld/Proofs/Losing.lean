import ClosedWorld.Proofs.Sparing

/-!
# What runs lose

Where nothing guards the calls to a function, they are lost, all of them. An
elimination that finds the function without a body dooms every call to it, and
no stage ever makes a call lead to a function that it did not lead to before. So
any number of runs either spare all calls to a function or leave none
(`Config.RunsTo.spares_or_uncalled`).

A body that is gone stays gone. A function may therefore be safe from the first
elimination, because it has a body, and lose its calls to the next one, because
preparation has dropped the body in between. It makes no difference whether the
two stages belong to the same run.
-/

namespace ClosedWorld

namespace Program

/-- The function has no body, if the program has the function at all. -/
def Bodiless (p : Program) (name : String) : Prop :=
  ∀ f, p.function? name = some f → f.isDeclaration = true

/-- No call leads to the function. -/
def Uncalled (p : Program) (name : String) : Prop :=
  ∀ f ∈ p.functions, ∀ call ∈ f.calls, call.callee.callee? ≠ some name

instance (p : Program) (name : String) : Decidable (p.Uncalled name) :=
  inferInstanceAs (Decidable (∀ f ∈ p.functions, ∀ call ∈ f.calls,
    call.callee.callee? ≠ some name))

variable {p : Program} {name : String} {c : Config}

/-- A function is not uncalled while a call to it is spared. -/
theorem Spares.not_uncalled {q : Program} {names : String → Prop} {stripped : List String}
    (h : p.Spares names stripped q) (hnames : names name) (caller : String) {f : Func}
    (hf : p.function? caller = some f) (hkept : caller ∉ stripped) {call : Call}
    (hcall : call ∈ f.calls) (hname : call.callee.callee? = some name) : ¬ q.Uncalled name := by
  intro huncalled
  obtain ⟨f', hf', hspares | ⟨hlost, -⟩⟩ := h caller f hf
  · obtain ⟨call', hcall', -, hcallee⟩ := hspares.exists_call hcall ⟨name, hname, hnames⟩
    exact huncalled f' (function?_mem hf') call' hcall' (hcallee.trans hname)
  · exact hkept hlost

/-! ## The two stages that change a program -/

theorem Bodiless.eliminate (h : p.Bodiless name) (t : TrustList) :
    (p.eliminate t).Bodiless name := by
  intro f' hf'
  rw [function?_eliminate] at hf'
  obtain ⟨f, hf, rfl⟩ := Option.map_eq_some_iff.mp hf'
  rw [Func.isDeclaration_eliminate]
  exact h f hf

theorem Bodiless.prepared (h : name ∈ c.stripped ∨ p.Bodiless name) (plan : EntryPlan) :
    (p.prepared c plan).Bodiless name := by
  intro f' hf'
  rw [function?_prepared] at hf'
  obtain ⟨f, hf, rfl⟩ := Option.map_eq_some_iff.mp hf'
  rw [Func.strippedIn]
  split
  · rfl
  · next hkept =>
      rw [function?_name hf] at hkept
      exact h.resolve_left hkept f hf

theorem Uncalled.eliminate (h : p.Uncalled name) (t : TrustList) :
    (p.eliminate t).Uncalled name := by
  intro f' hf' call' hcall' hname
  obtain ⟨f, hf, rfl⟩ := List.mem_map.mp hf'
  obtain ⟨call, hcall, -, hcallee⟩ := Func.exists_call_of_eliminate hcall'
  exact h f hf call hcall (hcallee ▸ hname)

theorem Uncalled.prepared (h : p.Uncalled name) (c : Config) (plan : EntryPlan) :
    (p.prepared c plan).Uncalled name := by
  intro f' hf' call hcall
  obtain ⟨f, hf, rfl⟩ := List.mem_map.mp hf'
  exact h f hf call (Func.mem_calls_strippedIn hcall)

/-- An elimination leaves no call to a function without a body that nothing else
keeps. -/
theorem Bodiless.uncalled_eliminate (h : p.Bodiless name) {t : TrustList} (hp : p.Resolved)
    (hintrinsic : isIntrinsicName name = false) (htrust : t.trusts name = false) :
    (p.eliminate t).Uncalled name := by
  intro f hf call hcall hname
  rcases closed_eliminate hp f hf call hcall name hname with h' | h' | ⟨g, hg, hbody⟩
  · rw [hintrinsic] at h'
    cases h'
  · rw [htrust] at h'
    cases h'
  · have hdecl := h.eliminate t g hg
    rw [hbody] at hdecl
    cases hdecl

end Program

namespace Config

variable {c : Config} {name : String} {p q : Program} {s : Stage} {ss : List Stage} {b : Bool}

/-! ## Stages -/

theorem bodiless_runStage (hname : name ∈ c.stripped) (h : .prepare = s ∨ p.Bodiless name)
    (hb : (c.runStage p s).result = .ok b) : (c.runStage p s).program.Bodiless name := by
  obtain ⟨rfl, -, hprogram⟩ | ⟨rfl, -, hprogram⟩ | ⟨-, plan, -, hprogram⟩ := runStage_eq_ok hb
  · rw [hprogram]
    exact h.resolve_left Stage.noConfusion
  · rw [hprogram]
    exact (h.resolve_left Stage.noConfusion).eliminate c.trustList
  · rw [hprogram]
    exact Program.Bodiless.prepared (Or.inl hname) plan

theorem uncalled_runStage (h : p.Uncalled name) (hb : (c.runStage p s).result = .ok b) :
    (c.runStage p s).program.Uncalled name := by
  obtain ⟨-, -, hprogram⟩ | ⟨-, -, hprogram⟩ | ⟨-, plan, -, hprogram⟩ := runStage_eq_ok hb
  · rw [hprogram]
    exact h
  · rw [hprogram]
    exact h.eliminate c.trustList
  · rw [hprogram]
    exact h.prepared c plan

/-- An elimination among the stages will find the function without a body, and
nothing else keeps the calls to it. -/
structure Loses (c : Config) (name : String) (ss : List Stage) (p : Program) : Prop where
  intrinsic : isIntrinsicName name = false
  untrusted : c.trustList.trusts name = false
  bodiless : .deleteUndefined ∈ ss ∧ p.Bodiless name ∨
    [.prepare, .deleteUndefined].Sublist ss ∧ name ∈ c.stripped

/-- What is not guarded is lost. -/
theorem guards_or_loses (c : Config) (name : String) (ss : List Stage) (p : Program) :
    c.Guards (· = name) ss p ∨ c.Loses name ss p := by
  by_cases hloses : c.Loses name ss p
  · exact Or.inr hloses
  · left
    intro hmem name' hname
    rw [hname]
    cases hintrinsic : isIntrinsicName name with
    | true => exact Or.inl rfl
    | false =>
        cases htrust : c.trustList.trusts name with
        | true => exact Or.inr (Or.inl rfl)
        | false =>
            have hbodiless : ¬ p.Bodiless name :=
              fun h => hloses ⟨hintrinsic, htrust, Or.inl ⟨hmem, h⟩⟩
            have horder : ¬ ([.prepare, .deleteUndefined].Sublist ss ∧ name ∈ c.stripped) :=
              fun h => hloses ⟨hintrinsic, htrust, Or.inr h⟩
            refine Or.inr (Or.inr ⟨?_, horder⟩)
            simp only [Program.Bodiless, Classical.not_forall] at hbodiless
            obtain ⟨f, hf, hbody⟩ := hbodiless
            exact ⟨f, hf, Bool.eq_false_iff.mpr hbody⟩

/-- The calls are gone after a stage, or they will be after the rest. -/
theorem Loses.runStage (h : c.Loses name (s :: ss) p) (hb : (c.runStage p s).result = .ok b) :
    (c.runStage p s).program.Uncalled name ∨ c.Loses name ss (c.runStage p s).program := by
  obtain ⟨hintrinsic, htrust, hbodiless⟩ := h
  obtain ⟨rfl, -, hprogram⟩ | ⟨rfl, hp, hprogram⟩ | ⟨rfl, plan, -, hprogram⟩ := runStage_eq_ok hb
  · right
    rw [hprogram]
    refine ⟨hintrinsic, htrust, ?_⟩
    rcases hbodiless with ⟨hmem, hbodiless⟩ | ⟨hsub, hname⟩
    · exact Or.inl ⟨(List.mem_cons.mp hmem).resolve_left Stage.noConfusion, hbodiless⟩
    · cases hsub with
      | cons _ hsub => exact Or.inr ⟨hsub, hname⟩
  · rw [hprogram]
    rcases hbodiless with ⟨-, hbodiless⟩ | ⟨hsub, hname⟩
    · exact Or.inl (hbodiless.uncalled_eliminate hp hintrinsic htrust)
    · cases hsub with
      | cons _ hsub => exact Or.inr ⟨hintrinsic, htrust, Or.inr ⟨hsub, hname⟩⟩
  · right
    rw [hprogram]
    refine ⟨hintrinsic, htrust, ?_⟩
    rcases hbodiless with ⟨hmem, hbodiless⟩ | ⟨hsub, hname⟩
    · exact Or.inl ⟨(List.mem_cons.mp hmem).resolve_left Stage.noConfusion,
        Program.Bodiless.prepared (Or.inr hbodiless) plan⟩
    · have hmem : .deleteUndefined ∈ ss := by
        cases hsub with
        | cons _ hsub => exact hsub.subset (List.mem_cons_of_mem _ List.mem_cons_self)
        | cons_cons _ hsub => exact hsub.subset List.mem_cons_self
      exact Or.inl ⟨hmem, Program.Bodiless.prepared (Or.inl hname) plan⟩

theorem Loses.runStages (h : c.Loses name ss p) (hb : (c.runStages p ss).result = .ok b) :
    (c.runStages p ss).program.Uncalled name := by
  have hend := runStages_induction (I := fun ss p => p.Uncalled name ∨ c.Loses name ss p) ?_
    (Or.inr h) hb
  · refine hend.resolve_right fun hloses => ?_
    rcases hloses.bodiless with ⟨hmem, -⟩ | ⟨hsub, -⟩
    · cases hmem
    · cases hsub
  · intro s ss p b h hs
    rcases h with huncalled | hloses
    · exact Or.inl (uncalled_runStage huncalled hs)
    · exact hloses.runStage hs

/-! ## Runs -/

variable {report : Report} {m n : Nat}

theorem bodiless_run (hmem : .prepare ∈ c.stages) (hname : name ∈ c.stripped)
    (h : (c.run p).result = .ok report) : (c.run p).program.Bodiless name := by
  obtain ⟨-, b, hs, hprogram⟩ := run_eq_ok h
  rw [hprogram]
  exact runStages_establishes (fun _ _ _ h hs => bodiless_runStage hname h hs) (Or.inl hmem) hs

theorem uncalled_run (hbefore : p.Uncalled name) (h : (c.run p).result = .ok report) :
    (c.run p).program.Uncalled name := by
  obtain ⟨-, b, hs, hprogram⟩ := run_eq_ok h
  rw [hprogram]
  exact runStages_induction (I := fun _ p => p.Uncalled name)
    (fun _ _ _ _ h hs => uncalled_runStage h hs) hbefore hs

theorem Loses.run (hloses : c.Loses name c.stages p) (h : (c.run p).result = .ok report) :
    (c.run p).program.Uncalled name := by
  obtain ⟨-, b, hs, hprogram⟩ := run_eq_ok h
  rw [hprogram]
  exact hloses.runStages hs

theorem RunsTo.unique {q' : Program} (h : c.RunsTo p n q) (h' : c.RunsTo p n q') : q = q' := by
  induction h generalizing q' with
  | start =>
      cases h' with
      | start => rfl
  | run _ _ ih =>
      cases h' with
      | run hq' _ => rw [ih hq']

theorem RunsTo.exists_of_le (h : c.RunsTo p n q) (hm : m ≤ n) : ∃ p', c.RunsTo p m p' := by
  induction h with
  | start =>
      have hzero : m = 0 := Nat.le_zero.mp hm
      subst hzero
      exact ⟨p, .start⟩
  | @run n q report hq hrun ih =>
      rcases Nat.le_succ_iff.mp hm with hm | rfl
      · exact ih hm
      · exact ⟨_, .run hq hrun⟩

/-- What one of several runs loses is gone at the end. -/
theorem RunsTo.uncalled (h : c.RunsTo p n q) (hm : m < n) {p' : Program} (h' : c.RunsTo p m p')
    (hloses : c.Loses name c.stages p') : q.Uncalled name := by
  induction h with
  | start => exact absurd hm (Nat.not_lt_zero m)
  | @run n q report hq hrun ih =>
      rcases Nat.lt_succ_iff_lt_or_eq.mp hm with hm | rfl
      · exact uncalled_run (ih hm) hrun
      · rw [h'.unique hq] at hloses
        exact hloses.run hrun

/-- **All or nothing.** However often a program is run, the calls to a function
are all spared, or there are none left. -/
theorem RunsTo.spares_or_uncalled (h : c.RunsTo p n q) (hp : p.WellFormed) (name : String) :
    p.Spares (· = name) c.stripped q ∨ q.Uncalled name := by
  by_cases hloses : ∃ m p', m < n ∧ c.RunsTo p m p' ∧ c.Loses name c.stages p'
  · obtain ⟨m, p', hm, h', hloses⟩ := hloses
    exact Or.inr (h.uncalled hm h' hloses)
  · refine Or.inl (h.spares hp fun m p' hm h' => ?_)
    exact (c.guards_or_loses name c.stages p').resolve_right
      fun hlost => hloses ⟨m, p', hm, h', hlost⟩

end Config

end ClosedWorld

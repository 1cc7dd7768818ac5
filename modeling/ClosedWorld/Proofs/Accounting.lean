import ClosedWorld.Proofs.Provenance
import ClosedWorld.Proofs.Reports

/-!
# Reports and changes

A run tells which functions it changed, by a removed call or a stripped body, and
which globals, by a zero or by the new table. `Config.run_accounts` compares this
with the two ends of the run. A function that had a body is reported exactly if
it is not what it was, and a global is reported once if it is new or not what it
was, and else not at all.

The difficulty is that a run has several stages, and a change that one stage
reports might be undone by a later one. So the comparison is made by a quantity
that only goes down. A function weighs as much as it has instructions, and one
more if it has a body; a report means that this weight has fallen, and as long as
it has not, nothing about the function has changed. For a global it is enough
that it lacks a zero at most once.

Functions without a body have no weight, and they are where reports fall short.
Preparation makes a stripped function external and takes away an empty list of
blocks also where there was no body to lose, and says nothing.
-/

namespace ClosedWorld

/-! ## What a diagnostic is about -/

namespace Diagnostic

/-- The diagnostic says that the function of this name has changed. -/
def reportsFunction (name : String) (d : Diagnostic) : Bool :=
  d.kind == .removedCall && d.caller == some name || d.kind == .strippedBody && d.symbol == name

/-- The diagnostic says that the global of this name has changed or is new. -/
def reportsGlobal (name : String) (d : Diagnostic) : Bool :=
  (d.kind == .initializedGlobal || d.kind == .entryTableCreated) && d.symbol == name

theorem reportsFunction_removed (name caller : String) (call : Call) :
    (removed caller call).reportsFunction name = (caller == name) := by
  simp [reportsFunction, removed]

theorem reportsFunction_stripped (name other : String) :
    (stripped other).reportsFunction name = (other == name) := by
  simp [reportsFunction, stripped]

theorem reportsGlobal_initialized (name other : String) :
    (initialized other).reportsGlobal name = (other == name) := by
  simp [reportsGlobal, initialized]

theorem reportsFunction_report (name : String) (c : Config) (plan : EntryPlan) :
    (plan.report c).reportsFunction name = false := by
  cases plan <;> rfl

theorem reportsGlobal_report (name : String) (c : Config) (plan : EntryPlan) :
    (plan.report c).reportsGlobal name = ((plan.tables c).any (·.name == name)) := by
  cases plan
  · simp [reportsGlobal, EntryPlan.report, EntryPlan.tables, Config.entryTableGlobal]
  · rfl

end Diagnostic

/-! ## What a function has to lose -/

namespace Func

/-- One for each instruction, and one for having a body. -/
def weight (f : Func) : Nat := f.instrs.length + if f.isDeclaration then 0 else 1

theorem weight_eq_zero_iff {f : Func} : f.weight = 0 ↔ f.isDeclaration = true := by
  rw [weight]
  cases hdecl : f.isDeclaration with
  | false => simp
  | true =>
      have hblocks : f.blocks = [] := List.isEmpty_iff.mp hdecl
      simp [instrs, hblocks]

theorem length_dropCalls (test : Call → Bool) (is : List Instr) :
    (ClosedWorld.dropCalls test is).length + ((is.filterMap Instr.call?).filter test).length =
      is.length := by
  induction is with
  | nil => rfl
  | cons i is ih =>
      rw [ClosedWorld.dropCalls] at ih ⊢
      cases hcall : i.call? with
      | none =>
          rw [List.filter_cons_of_pos (by simp [hcall]), List.filterMap_cons_none hcall,
            List.length_cons, List.length_cons]
          omega
      | some call =>
          rw [List.filterMap_cons_some hcall, List.length_cons]
          by_cases htest : test call = true
          · rw [List.filter_cons_of_neg (by simp [hcall, htest]), List.filter_cons_of_pos htest,
              List.length_cons]
            omega
          · rw [List.filter_cons_of_pos (by simp [hcall, htest]), List.filter_cons_of_neg htest,
              List.length_cons]
            omega

theorem length_instrs_eliminate (doomed : Call → Bool) (f : Func) :
    (f.eliminate doomed).instrs.length + (f.calls.filter doomed).length = f.instrs.length := by
  rw [instrs_eliminate, List.length_map, calls]
  exact length_dropCalls doomed f.instrs

theorem weight_eliminate (doomed : Call → Bool) (f : Func) :
    (f.eliminate doomed).weight + (f.calls.filter doomed).length = f.weight := by
  have hlength := f.length_instrs_eliminate doomed
  rw [weight, isDeclaration_eliminate, weight]
  omega

theorem weight_stripped (f : Func) : f.stripped.weight = 0 := rfl

/-- What is left of a function after some steps, and what they reported: the
function is reported if it has lost weight, and stays as it is if it has not. A
function without a body has no weight to lose. -/
structure Accounts (ds : List Diagnostic) (f f' : Func) : Prop where
  name : f'.name = f.name
  le : f'.weight ≤ f.weight
  reported : (∃ d ∈ ds, d.reportsFunction f.name = true) ↔ f'.weight < f.weight
  kept : f.isDeclaration = false → f'.weight = f.weight → f' = f

theorem Accounts.refl {ds : List Diagnostic} {f : Func}
    (h : ∀ d ∈ ds, d.reportsFunction f.name = false) : f.Accounts ds f where
  name := rfl
  le := Nat.le_refl _
  reported := by
    refine ⟨?_, fun hlt => absurd hlt (Nat.lt_irrefl _)⟩
    rintro ⟨d, hd, hreports⟩
    rw [h d hd] at hreports
    cases hreports
  kept := fun _ _ => rfl

theorem Accounts.trans {ds ds' : List Diagnostic} {f f' f'' : Func} (h : f.Accounts ds f')
    (h' : f'.Accounts ds' f'') : f.Accounts (ds ++ ds') f'' where
  name := h'.name.trans h.name
  le := Nat.le_trans h'.le h.le
  reported := by
    have hreported := h'.reported
    rw [h.name] at hreported
    have hle := h.le
    have hle' := h'.le
    simp only [List.mem_append, or_and_right, exists_or, h.reported, hreported]
    omega
  kept := by
    intro hdecl hweight
    have hle := h.le
    have hle' := h'.le
    have hfirst : f' = f := h.kept hdecl (by omega)
    rw [hfirst] at h'
    exact h'.kept hdecl hweight

theorem accounts_strippedIn {ds : List Diagnostic} {names : List String} {f : Func}
    (h : (∃ d ∈ ds, d.reportsFunction f.name = true) ↔
      f.name ∈ names ∧ f.isDeclaration = false) : f.Accounts ds (f.strippedIn names) := by
  by_cases hmem : f.name ∈ names
  · have hstripped : f.strippedIn names = f.stripped := if_pos hmem
    have hbody : f.isDeclaration = false ↔ 0 < f.weight := by
      rw [Nat.pos_iff_ne_zero, ne_eq, weight_eq_zero_iff, Bool.not_eq_true]
    rw [hstripped]
    refine ⟨rfl, Nat.zero_le _, ?_, ?_⟩
    · rw [h, hbody, weight_stripped]
      exact and_iff_right hmem
    · intro hdecl hweight
      rw [weight_stripped, eq_comm, weight_eq_zero_iff, hdecl] at hweight
      cases hweight
  · have hkept : f.strippedIn names = f := if_neg hmem
    rw [hkept]
    refine .refl fun d hd => ?_
    cases hreports : d.reportsFunction f.name with
    | false => rfl
    | true => exact absurd (h.mp ⟨d, hd, hreports⟩).1 hmem

theorem accounts_eliminate {ds : List Diagnostic} {doomed : Call → Bool} {f : Func}
    (h : (∃ d ∈ ds, d.reportsFunction f.name = true) ↔ ∃ call ∈ f.calls, doomed call = true) :
    f.Accounts ds (f.eliminate doomed) := by
  have hweight := f.weight_eliminate doomed
  have hsome : (∃ call ∈ f.calls, doomed call = true) ↔ 0 < (f.calls.filter doomed).length := by
    rw [List.length_filter_pos_iff]
  refine ⟨rfl, by omega, ?_, ?_⟩
  · rw [h, hsome]
    omega
  · intro _ heq
    refine eliminate_of_spared fun call hcall => ?_
    cases hd : doomed call with
    | false => rfl
    | true =>
        have := hsome.mp ⟨call, hcall, hd⟩
        omega

end Func

/-! ## What stages do to a program -/

/-- Of globals with different names at most one of a name is among those that
lack a zero. -/
theorem countP_needsZero {gs : List Global} (h : (gs.map Global.name).Nodup) (name : String) :
    (gs.filter Global.needsZero).countP (·.name == name) =
      if (gs.find? (·.name == name)).any Global.needsZero then 1 else 0 := by
  have hcomm : (gs.filter Global.needsZero).filter (·.name == name) =
      (gs.filter (·.name == name)).filter Global.needsZero := by
    simp only [List.filter_filter, Bool.and_comm]
  rw [List.countP_eq_length_filter, hcomm, Program.filter_name_eq h]
  cases gs.find? (·.name == name) with
  | none => rfl
  | some g => cases hneeds : g.needsZero <;> simp [hneeds]

namespace Program

/-- The global is there and lacks no zero. -/
def Settled (p : Program) (name : String) : Prop :=
  ∃ g, p.global? name = some g ∧ g.needsZero = false

/-- What is left of a program after some steps, and what they reported. A global
is reported once, and then it is settled and was not before, or it is not
reported and stays as it is. -/
structure Accounts (ds : List Diagnostic) (p q : Program) : Prop where
  names : q.functions.map Func.name = p.functions.map Func.name
  known : ∀ name, (∃ d ∈ ds, d.reportsFunction name = true) → (p.function? name).isSome = true
  functions : ∀ name f, p.function? name = some f →
    ∃ f', q.function? name = some f' ∧ f.Accounts ds f'
  globals : ∀ name,
    (q.global? name = p.global? name ∧ ds.countP (·.reportsGlobal name) = 0) ∨
      (¬ p.Settled name ∧ q.Settled name ∧ ds.countP (·.reportsGlobal name) = 1)

theorem Accounts.refl {ds : List Diagnostic} {p : Program}
    (hfunctions : ∀ d ∈ ds, ∀ name, d.reportsFunction name = false)
    (hglobals : ∀ d ∈ ds, ∀ name, d.reportsGlobal name = false) : p.Accounts ds p where
  names := rfl
  known := by
    rintro name ⟨d, hd, hreports⟩
    rw [hfunctions d hd name] at hreports
    cases hreports
  functions := fun name f hf => ⟨f, hf, .refl fun d hd => hfunctions d hd f.name⟩
  globals := by
    refine fun name => Or.inl ⟨rfl, List.countP_eq_zero.mpr fun d hd => ?_⟩
    rw [hglobals d hd name]
    exact Bool.false_ne_true

theorem Accounts.trans {ds ds' : List Diagnostic} {p p' q : Program} (h : p.Accounts ds p')
    (h' : p'.Accounts ds' q) : p.Accounts (ds ++ ds') q where
  names := h'.names.trans h.names
  known := by
    rintro name ⟨d, hd, hreports⟩
    rcases List.mem_append.mp hd with hd | hd
    · exact h.known name ⟨d, hd, hreports⟩
    · have hsome := h'.known name ⟨d, hd, hreports⟩
      rwa [isSome_function?, h.names, ← isSome_function?] at hsome
  functions := by
    intro name f hf
    obtain ⟨f', hf', hfirst⟩ := h.functions name f hf
    obtain ⟨f'', hf'', hrest⟩ := h'.functions name f' hf'
    exact ⟨f'', hf'', hfirst.trans hrest⟩
  globals := by
    intro name
    rw [List.countP_append]
    rcases h.globals name with ⟨heq, hcount⟩ | ⟨hbefore, hafter, hcount⟩
    · have hsettled : p'.Settled name ↔ p.Settled name := by rw [Settled, Settled, heq]
      rcases h'.globals name with ⟨heq', hcount'⟩ | ⟨hbefore, hafter, hcount'⟩
      · exact Or.inl ⟨heq'.trans heq, by rw [hcount, hcount']⟩
      · exact Or.inr ⟨fun hp => hbefore (hsettled.mpr hp), hafter, by rw [hcount, hcount']⟩
    · -- What is settled once is not reported again.
      rcases h'.globals name with ⟨heq', hcount'⟩ | ⟨hnot, -⟩
      · refine Or.inr ⟨hbefore, ?_, by rw [hcount, hcount']⟩
        rw [Settled, heq']
        exact hafter
      · exact absurd hafter hnot

theorem reportsFunction_removals {p : Program} (hp : p.Keyed) (doomed : Call → Bool)
    (name : String) :
    (∃ d ∈ p.functions.flatMap fun f => (f.calls.filter doomed).map (Diagnostic.removed f.name),
      d.reportsFunction name = true) ↔
        ∃ f, p.function? name = some f ∧ ∃ call ∈ f.calls, doomed call = true := by
  simp only [List.mem_flatMap, List.mem_map, List.mem_filter, hp.function?_eq_some_iff]
  constructor
  · rintro ⟨_, ⟨f, hf, call, ⟨hcall, hd⟩, rfl⟩, hname⟩
    rw [Diagnostic.reportsFunction_removed, beq_iff_eq] at hname
    exact ⟨f, ⟨hf, hname⟩, call, hcall, hd⟩
  · rintro ⟨f, ⟨hf, hname⟩, call, hcall, hd⟩
    refine ⟨_, ⟨f, hf, call, ⟨hcall, hd⟩, rfl⟩, ?_⟩
    rw [Diagnostic.reportsFunction_removed, beq_iff_eq]
    exact hname

theorem accounts_eliminate {p : Program} (hp : p.Keyed) (t : TrustList) :
    p.Accounts
      (p.functions.flatMap fun f => (f.calls.filter (p.dooms t)).map (Diagnostic.removed f.name))
      (p.eliminate t) := by
  refine ⟨functionNames_eliminate p t, fun name hname => ?_, fun name f hf => ?_,
    fun name => Or.inl ⟨rfl, List.countP_eq_zero.mpr fun d hd => ?_⟩⟩
  · obtain ⟨f, hf, -⟩ := (reportsFunction_removals hp _ name).mp hname
    rw [hf]
    rfl
  · refine ⟨f.eliminate (p.dooms t), by rw [function?_eliminate, hf]; rfl, ?_⟩
    refine Func.accounts_eliminate ?_
    rw [reportsFunction_removals hp, function?_name hf, hf]
    simp only [Option.some.injEq, exists_eq_left']
  · obtain ⟨f, -, hd⟩ := List.mem_flatMap.mp hd
    obtain ⟨call, -, rfl⟩ := List.mem_map.mp hd
    exact Bool.false_ne_true

section Preparation

variable {p : Program} {c : Config} {plan : EntryPlan}

theorem reportsFunction_prepareEntry (h : p.entryPlan c = .ok plan) (name : String) :
    (∃ d ∈ (p.prepareEntry c).diagnostics, d.reportsFunction name = true) ↔
      name ∈ c.stripped ∧ p.HasBody name := by
  rw [prepareEntry_diagnostics h]
  constructor
  · rintro ⟨d, hd, hname⟩
    rcases List.mem_append.mp hd with hd | hd
    · obtain ⟨other, hmem, rfl, hbody⟩ := mem_stripBodies_diagnostics.mp hd
      rw [Diagnostic.reportsFunction_stripped, beq_iff_eq] at hname
      exact hname ▸ ⟨hmem, hbody⟩
    · rcases List.mem_append.mp hd with hd | hd
      · obtain ⟨g, -, rfl⟩ := List.mem_map.mp hd
        cases hname
      · rw [List.mem_singleton.mp hd, Diagnostic.reportsFunction_report] at hname
        cases hname
  · rintro ⟨hmem, hbody⟩
    refine ⟨.stripped name, List.mem_append_left _ ?_, ?_⟩
    · exact mem_stripBodies_diagnostics.mpr ⟨name, hmem, rfl, hbody⟩
    · rw [Diagnostic.reportsFunction_stripped, beq_self_eq_true]

theorem countP_prepareEntry (hp : p.Keyed) (h : p.entryPlan c = .ok plan) (name : String) :
    (p.prepareEntry c).diagnostics.countP (·.reportsGlobal name) =
      (if (p.global? name).any Global.needsZero then 1 else 0) +
        if (plan.tables c).any (·.name == name) then 1 else 0 := by
  have hstrip : (p.stripBodies c.stripped).diagnostics.countP (·.reportsGlobal name) = 0 := by
    refine List.countP_eq_zero.mpr fun d hd => ?_
    obtain ⟨other, -, rfl, -⟩ := mem_stripBodies_diagnostics.mp hd
    exact Bool.false_ne_true
  have hzeros : ((p.globals.filter Global.needsZero).map
      fun g => Diagnostic.initialized g.name).countP (·.reportsGlobal name) =
        if (p.global? name).any Global.needsZero then 1 else 0 := by
    rw [List.countP_map]
    simp only [Function.comp_def, Diagnostic.reportsGlobal_initialized]
    exact countP_needsZero hp.2 name
  rw [prepareEntry_diagnostics h, List.countP_append, List.countP_append, hstrip, hzeros,
    List.countP_singleton, Diagnostic.reportsGlobal_report, Nat.zero_add]

theorem globals_prepared (hp : p.Keyed) (h : p.entryPlan c = .ok plan) (name : String) :
    ((p.prepared c plan).global? name = p.global? name ∧
        (p.prepareEntry c).diagnostics.countP (·.reportsGlobal name) = 0) ∨
      (¬ p.Settled name ∧ (p.prepared c plan).Settled name ∧
        (p.prepareEntry c).diagnostics.countP (·.reportsGlobal name) = 1) := by
  obtain ⟨-, hzeros, -, hplan⟩ := entryPlan_eq_ok h
  rw [countP_prepareEntry hp h, global?_prepared, Settled, Settled, global?_prepared]
  cases hg : p.global? name with
  | none =>
      rw [Option.map_none, Option.none_or, Option.any_none]
      rcases hplan with ⟨rfl, -⟩ | ⟨rfl, -⟩
      · rw [EntryPlan.tables, List.find?_singleton, List.any_cons, List.any_nil, Bool.or_false]
        by_cases htable : (c.entryTableGlobal.name == name) = true
        · rw [if_pos htable, if_pos htable]
          refine Or.inr ⟨?_, ⟨c.entryTableGlobal, rfl, rfl⟩, rfl⟩
          rintro ⟨g, hnone, -⟩
          cases hnone
        · rw [if_neg htable, if_neg htable]
          exact Or.inl ⟨rfl, rfl⟩
      · exact Or.inl ⟨rfl, rfl⟩
  | some g =>
      -- A name that a global has is not the name of a table that is added.
      have htables : (plan.tables c).any (·.name == name) = false := by
        rcases hplan with ⟨rfl, hfree⟩ | ⟨rfl, -⟩
        · refine List.any_eq_false.mpr fun g' hg' heq => ?_
          rw [List.mem_singleton.mp hg'] at heq
          have hname : c.entryTable = name := beq_iff_eq.mp heq
          rw [hname, hg] at hfree
          cases hfree
        · rfl
      rw [htables, Option.map_some, Option.some_or, Option.any_some]
      cases hneeds : g.needsZero with
      | false =>
          have hkept : g.zeroed = g := by rw [Global.zeroed, hneeds]; rfl
          rw [hkept]
          exact Or.inl ⟨rfl, rfl⟩
      | true =>
          have hsettled := Global.zeroed_needsZero (hzeros g (global?_mem hg))
          refine Or.inr ⟨?_, ⟨g.zeroed, rfl, hsettled⟩, rfl⟩
          rintro ⟨g', hg', hbefore⟩
          cases hg'
          rw [hneeds] at hbefore
          cases hbefore

theorem accounts_prepared (hp : p.Keyed) (h : p.entryPlan c = .ok plan) :
    p.Accounts (p.prepareEntry c).diagnostics (p.prepared c plan) := by
  refine ⟨functionNames_prepared p c plan, fun name hname => ?_, fun name f hf => ?_,
    globals_prepared hp h⟩
  · obtain ⟨-, f, hf, -⟩ := (reportsFunction_prepareEntry h name).mp hname
    rw [hf]
    rfl
  · refine ⟨f.strippedIn c.stripped, by rw [function?_prepared, hf]; rfl, ?_⟩
    refine Func.accounts_strippedIn ?_
    rw [reportsFunction_prepareEntry h, HasBody, function?_name hf, hf]
    simp only [Option.some.injEq, exists_eq_left']

end Preparation

end Program

/-! ## Runs -/

namespace Config

variable {c : Config} {p : Program}

theorem accounts_runStage (hp : p.Keyed) {s : Stage} {b : Bool}
    (h : (c.runStage p s).result = .ok b) :
    p.Accounts (c.runStage p s).diagnostics (c.runStage p s).program := by
  cases s with
  | checkUnsupported =>
      rw [runStage, Program.checkUnsupported_program]
      refine .refl (fun d hd name => ?_) fun d hd name => ?_
      · rw [Diagnostic.reportsFunction, checkUnsupported_diagnostics hd]
        rfl
      · rw [Diagnostic.reportsGlobal, checkUnsupported_diagnostics hd]
        rfl
  | deleteUndefined =>
      rw [runStage] at h ⊢
      rw [Program.deleteUndefined_diagnostics h, Program.deleteUndefined_program h]
      exact Program.accounts_eliminate hp c.trustList
  | prepare =>
      rw [runStage] at h ⊢
      obtain ⟨-, plan, hplan⟩ := Program.prepareEntry_eq_ok.mp h
      rw [(Program.prepareEntry_of_ok hplan).2]
      exact Program.accounts_prepared hp hplan

theorem accounts_runStages (hp : p.Keyed) {ss : List Stage} {b : Bool}
    (h : (c.runStages p ss).result = .ok b) :
    p.Accounts (c.runStages p ss).diagnostics (c.runStages p ss).program := by
  refine runStages_report (R := fun _ p q ds => p.Keyed → p.Accounts ds q) ?_ ?_ h hp
  · intro p _
    exact .refl nofun nofun
  · intro s ss p b q ds hs hrest hp
    exact (accounts_runStage hp hs).trans (hrest (keyed_runStage hp s))

/-- To a function without a body only preparation does anything. -/
theorem declaration_runStages {ss : List Stage} {b : Bool}
    (h : (c.runStages p ss).result = .ok b) {name : String} {f : Func}
    (hf : p.function? name = some f) (hdecl : f.isDeclaration = true) :
    (c.runStages p ss).program.function? name =
      some (if .prepare ∈ ss then f.strippedIn c.stripped else f) := by
  induction ss generalizing p f b with
  | nil => exact hf
  | cons s ss ih =>
      obtain ⟨b₁, b₂, hs, hrest, hprogram⟩ := runStages_cons_eq_ok h
      rw [hprogram]
      obtain ⟨rfl, -, hfirst⟩ | ⟨rfl, -, hfirst⟩ | ⟨rfl, plan, -, hfirst⟩ := runStage_eq_ok hs
      · rw [hfirst] at hrest ⊢
        rw [ih hrest hf hdecl]
        simp
      · have hf' : (p.eliminate c.trustList).function? name = some f := by
          rw [Program.function?_eliminate, hf, Option.map_some,
            Func.eliminate_of_isDeclaration hdecl]
        rw [hfirst] at hrest ⊢
        rw [ih hrest hf' hdecl]
        simp
      · have hf' : (p.prepared c plan).function? name = some (f.strippedIn c.stripped) := by
          rw [Program.function?_prepared, hf, Option.map_some]
        rw [hfirst] at hrest ⊢
        rw [ih hrest hf' (Func.isDeclaration_strippedIn hdecl), Func.strippedIn_strippedIn]
        simp

/-- **Reports match changes.** A function that had a body is reported exactly
if it has changed, and a global is reported once if it is new or has changed, and
else not at all. Functions without a body are never reported, though preparation
makes those among them external that it strips. -/
theorem run_accounts (hp : p.Keyed) {report : Report} (h : (c.run p).result = .ok report) :
    (c.run p).program.functions.map Func.name = p.functions.map Func.name ∧
      (∀ name, (∃ d ∈ report.diagnostics, d.reportsFunction name = true) ↔
        ∃ f, p.function? name = some f ∧ f.isDeclaration = false ∧
          (c.run p).program.function? name ≠ some f) ∧
      (∀ name f, p.function? name = some f → f.isDeclaration = true →
        (c.run p).program.function? name =
          some (if .prepare ∈ c.stages then f.strippedIn c.stripped else f)) ∧
      ∀ name, report.diagnostics.countP (·.reportsGlobal name) =
        if (c.run p).program.global? name = p.global? name then 0 else 1 := by
  have hreport := run_report h
  obtain ⟨-, b, hs, hprogram⟩ := run_eq_ok h
  have haccounts := accounts_runStages hp hs
  rw [hprogram, hreport]
  refine ⟨haccounts.names, fun name => ⟨fun hd => ?_, fun hf => ?_⟩, ?_, fun name => ?_⟩
  · obtain ⟨f, hf⟩ := Option.isSome_iff_exists.mp (haccounts.known name hd)
    obtain ⟨f', hf', hchange⟩ := haccounts.functions name f hf
    rw [← Program.function?_name hf, hchange.reported] at hd
    refine ⟨f, hf, ?_, fun hsame => ?_⟩
    · cases hdecl : f.isDeclaration with
      | false => rfl
      | true =>
          rw [Func.weight_eq_zero_iff.mpr hdecl] at hd
          exact absurd hd (Nat.not_lt_zero _)
    · rw [hf', Option.some.injEq] at hsame
      rw [hsame] at hd
      exact absurd hd (Nat.lt_irrefl _)
  · obtain ⟨f, hf, hdecl, hne⟩ := hf
    obtain ⟨f', hf', hchange⟩ := haccounts.functions name f hf
    have hlt : f'.weight < f.weight := by
      refine Nat.lt_of_le_of_ne hchange.le fun heq => hne ?_
      rw [hf', hchange.kept hdecl heq]
    rw [← Program.function?_name hf]
    exact hchange.reported.mpr hlt
  · intro name f hf hdecl
    exact declaration_runStages hs hf hdecl
  · rcases haccounts.globals name with ⟨hsame, hcount⟩ | ⟨hbefore, hafter, hcount⟩
    · rw [hcount, if_pos hsame]
    · rw [hcount, if_neg]
      intro hsame
      rw [Program.Settled, hsame] at hafter
      exact hbefore hafter

/-- A program with a call to remove, a body to drop, a global that lacks a zero,
and no table. -/
def tidying : Program where
  functions := [
    { name := "log", ret := .void },
    { name := "kzalloc", ret := .bytePtr, body := some [
      { label := "entry", instrs := [.ret (some (.const (.null .bytePtr)))] }] },
    { name := "main", ret := .int 32, body := some [
      { label := "entry", instrs := [
        .call ⟨none, .void, .func "log", []⟩,
        .ret (some (.const (.int 32 0)))] }] }]
  globals := [{ name := "counter", ty := .int 32 }]

theorem run_accounts_tidying :
    let c : Config := {}
    ∃ report, tidying.Keyed ∧ (c.run tidying).result = .ok report ∧
      (∃ d ∈ report.diagnostics, d.reportsFunction "main" = true) ∧
      (∃ d ∈ report.diagnostics, d.reportsFunction "kzalloc" = true) ∧
      (¬ ∃ d ∈ report.diagnostics, d.reportsFunction "log" = true) ∧
      report.diagnostics.countP (·.reportsGlobal "counter") = 1 ∧
      report.diagnostics.countP (·.reportsGlobal c.entryTable) = 1 := by
  intro c
  have hp : tidying.Keyed := by decide +kernel
  have hok : (c.run tidying).result.isOk = true := by decide +kernel
  obtain ⟨report, h⟩ := exists_of_isOk hok
  obtain ⟨-, hfunctions, -, hglobals⟩ := run_accounts hp h
  refine ⟨report, hp, h, ?_, ?_, ?_, ?_, ?_⟩
  · exact (hfunctions "main").mpr ⟨_, rfl, rfl, by decide +kernel⟩
  · exact (hfunctions "kzalloc").mpr ⟨_, rfl, rfl, by decide +kernel⟩
  · rw [hfunctions]
    rintro ⟨f, hf, hdecl, -⟩
    cases hf
    cases hdecl
  · rw [hglobals, if_neg (by decide +kernel)]
  · rw [hglobals, if_neg (by decide +kernel)]

/-- A program that is prepared but for an oracle, which has no body and is
internal. -/
def muting : Program where
  name := "muting"
  functions := [
    { name := "kzalloc", ret := .bytePtr, params := [.int 64], linkage := .internal },
    { name := "main", ret := .int 32, body := some [
      { label := "entry", instrs := [.ret (some (.const (.int 32 0)))] }] }]
  globals := [({} : Config).entryTableGlobal]

/-- What is done to a function without a body is not reported. -/
theorem not_run_accounts_muting :
    let c : Config := {}
    muting.Keyed ∧ muting.verify = .ok () ∧
      (c.run muting).program.function? "kzalloc" ≠ muting.function? "kzalloc" ∧
      ∃ report, (c.run muting).result = .ok report ∧
        ¬ ∃ d ∈ report.diagnostics, d.reportsFunction "kzalloc" = true := by
  intro c
  have hok : (c.run muting).result.isOk = true := by decide +kernel
  have hverify : muting.verify = .ok () := if_pos (by decide +kernel)
  have hsilent : ¬ ∃ d ∈ (c.runStages muting c.stages).diagnostics,
      d.reportsFunction "kzalloc" = true := by decide +kernel
  obtain ⟨report, h⟩ := exists_of_isOk hok
  rw [← run_report h] at hsilent
  exact ⟨by decide +kernel, hverify, by decide +kernel, report, h, hsilent⟩

end Config

end ClosedWorld

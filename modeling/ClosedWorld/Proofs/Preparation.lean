import ClosedWorld.Proofs.Lookup
import ClosedWorld.Stage.Entry

/-!
# What preparing the entry comes to

The last stage checks first and then takes three steps, two of which can fail by
themselves. This file shows that they do not fail once the check has passed, and
what they come to: the stripped functions lose their bodies, every global in
need of a zero has one, and the table stands last unless it was there
(`Program.prepared`). A check that fails, on the other hand, ends the stage with
the program untouched.

No step takes a name away and none changes what another relies on. Stripping
concerns functions only and keeps their names; the zeros concern the values of
globals only; and the table is added under a name that the check has found free.
-/

namespace ClosedWorld

/-- The global with the zero that it needs, if it needs one. -/
def Global.zeroed (g : Global) : Global :=
  if g.needsZero then { g with initial := Constant.zeroOf? g.ty } else g

/-- The function without its body, if it is among the stripped ones. -/
def Func.strippedIn (names : List String) (f : Func) : Func :=
  if f.name ∈ names then f.stripped else f

/-- The globals that a plan adds. -/
def EntryPlan.tables (c : Config) : EntryPlan → List Global
  | .create => [c.entryTableGlobal]
  | .keep => []

/-- A program whose entry has been prepared. -/
def Program.prepared (p : Program) (c : Config) (plan : EntryPlan) : Program :=
  { p with
    functions := p.functions.map (Func.strippedIn c.stripped)
    globals := p.globals.map Global.zeroed ++ plan.tables c }

@[simp] theorem Global.zeroed_name (g : Global) : g.zeroed.name = g.name := by
  rw [zeroed]
  split <;> rfl

theorem Global.zeroed_needsZero {g : Global}
    (h : g.needsZero = true → ∃ zero, Constant.zeroOf? g.ty = some zero) :
    g.zeroed.needsZero = false := by
  rw [zeroed]
  cases hneeds : g.needsZero with
  | false => exact hneeds
  | true =>
      obtain ⟨zero, hzero⟩ := h hneeds
      rw [if_pos rfl, hzero, needsZero, Option.isNone_some, Bool.and_false]

@[simp] theorem Func.strippedIn_name (names : List String) (f : Func) :
    (f.strippedIn names).name = f.name := by
  rw [strippedIn]
  split <;> rfl

theorem Func.strippedIn_strippedIn (names : List String) (f : Func) :
    (f.strippedIn names).strippedIn names = f.strippedIn names := by
  by_cases hmem : f.name ∈ names
  · have hstripped : f.strippedIn names = f.stripped := if_pos hmem
    rw [hstripped]
    exact if_pos hmem
  · have hkept : f.strippedIn names = f := if_neg hmem
    rw [hkept, hkept]

theorem Func.isDeclaration_strippedIn {names : List String} {f : Func}
    (h : f.isDeclaration = true) : (f.strippedIn names).isDeclaration = true := by
  rw [strippedIn]
  split
  · rfl
  · exact h

theorem Func.mem_calls_strippedIn {names : List String} {f : Func} {call : Call}
    (h : call ∈ (f.strippedIn names).calls) : call ∈ f.calls := by
  rw [strippedIn] at h
  split at h
  · cases h
  · exact h

namespace Program

theorem function?_prepared (p : Program) (c : Config) (plan : EntryPlan) (name : String) :
    (p.prepared c plan).function? name = (p.function? name).map (Func.strippedIn c.stripped) :=
  function?_map (Func.strippedIn_name c.stripped) rfl name

/-- A function that is not among the stripped ones is found as it was. -/
theorem function?_prepared_of_kept {p : Program} {c : Config} {plan : EntryPlan} {name : String}
    (h : name ∉ c.stripped) : (p.prepared c plan).function? name = p.function? name := by
  rw [function?_prepared]
  cases hf : p.function? name with
  | none => rfl
  | some f => rw [Option.map_some, Func.strippedIn, function?_name hf, if_neg h]

theorem global?_prepared (p : Program) (c : Config) (plan : EntryPlan) (name : String) :
    (p.prepared c plan).global? name =
      ((p.global? name).map Global.zeroed).or ((plan.tables c).find? (·.name == name)) := by
  rw [global?, prepared, List.find?_append, List.find?_map]
  simp only [Function.comp_def, Global.zeroed_name]
  rfl

theorem functionNames_prepared (p : Program) (c : Config) (plan : EntryPlan) :
    (p.prepared c plan).functions.map Func.name = p.functions.map Func.name := by
  simp only [prepared, List.map_map, Function.comp_def, Func.strippedIn_name]

theorem globalNames_prepared (p : Program) (c : Config) (plan : EntryPlan) :
    (p.prepared c plan).globals.map Global.name =
      p.globals.map Global.name ++ (plan.tables c).map Global.name := by
  simp only [prepared, List.map_append, List.map_map, Function.comp_def, Global.zeroed_name]

/-! ## The check -/

theorem entryPlan_eq_ok {p : Program} {c : Config} {plan : EntryPlan}
    (h : p.entryPlan c = .ok plan) :
    (p.function? c.entryFunction).isSome = true ∧
      (∀ g ∈ p.globals, g.needsZero = true → ∃ zero, Constant.zeroOf? g.ty = some zero) ∧
      p.function? c.entryTable = none ∧
      (plan = .create ∧ p.global? c.entryTable = none ∨
        plan = .keep ∧ (p.global? c.entryTable).isSome = true) := by
  rw [entryPlan] at h
  split at h
  · cases h
  · next hentry =>
      split at h
      · cases h
      · next hzero =>
          split at h
          · cases h
          · next htable =>
              refine ⟨Option.isSome_iff_ne_none.mpr (by simpa using hentry), ?_, by simpa using htable, ?_⟩
              · intro g hg hneeds
                have hsome := List.find?_eq_none.mp hzero g hg
                simp only [hneeds, Bool.true_and, Option.isNone_iff_eq_none] at hsome
                exact Option.ne_none_iff_exists'.mp hsome
              · split at h
                · next hnone =>
                    cases h
                    exact Or.inl ⟨rfl, hnone⟩
                · next hsome _ =>
                    cases h
                    exact Or.inr ⟨rfl, by rw [hsome]; rfl⟩
                · cases h

/-- A table is added where its name is free. -/
theorem hasName_entryTable {p : Program} {c : Config} (h : p.entryPlan c = .ok .create) :
    p.hasName c.entryTable = false := by
  obtain ⟨-, -, hfunction, ⟨-, hglobal⟩ | ⟨hkeep, -⟩⟩ := entryPlan_eq_ok h
  · rw [hasName, defines, defines, hfunction, hglobal]
    rfl
  · cases hkeep

/-- Where the entry is there, all globals have their zeros and there is a table,
the check depends on the policy only. -/
theorem entryPlan_of_table {p : Program} {c : Config}
    (hentry : (p.function? c.entryFunction).isSome = true)
    (hzeroed : ∀ g ∈ p.globals, g.needsZero = false) (hunmixed : p.function? c.entryTable = none)
    (htable : (p.global? c.entryTable).isSome = true) :
    p.entryPlan c = match c.tablePolicy with
      | .keep => .ok .keep
      | .reject => .error (.entryTableExists c.entryTable) := by
  obtain ⟨f, hf⟩ := Option.isSome_iff_exists.mp hentry
  obtain ⟨g, hg⟩ := Option.isSome_iff_exists.mp htable
  have hzero : (p.globals.find? fun g => g.needsZero && (Constant.zeroOf? g.ty).isNone) = none := by
    refine List.find?_eq_none.mpr fun g hg => ?_
    rw [hzeroed g hg, Bool.false_and]
    exact Bool.false_ne_true
  rw [entryPlan, hf, hzero, hunmixed, hg]
  cases c.tablePolicy <;> rfl

/-! ## Oracle bodies -/

theorem modify_of_fixed {p : Program} {name : String} {k : Func → Func}
    (h : ∀ f ∈ p.functions, f.name = name → k f = f) : p.modify name k = p := by
  have hid : p.functions.map (fun f => if f.name = name then k f else f) = p.functions := by
    refine (List.map_congr_left fun f hf => ?_).trans (List.map_id p.functions)
    split
    · next hname => exact h f hf hname
    · rfl
  rw [modify, hid]

theorem modify_of_none {p : Program} {name : String} {k : Func → Func}
    (h : p.function? name = none) : p.modify name k = p := by
  refine modify_of_fixed fun f hf hname => ?_
  have hne : f.name ≠ name := by simpa using List.find?_eq_none.mp h f hf
  exact absurd hname hne

theorem stripBody_ok (p : Program) (name : String) :
    ∃ b, (p.stripBody name).result = .ok b ∧
      (p.stripBody name).program = p.modify name Func.stripped := by
  rw [stripBody]
  cases hf : p.function? name with
  | none => exact ⟨false, rfl, (modify_of_none hf).symm⟩
  | some f =>
      simp only []
      split
      · exact ⟨false, rfl, rfl⟩
      · exact ⟨true, rfl, rfl⟩

theorem stripBodies_ok (p : Program) (names : List String) :
    ∃ b, (p.stripBodies names).result = .ok b ∧
      (p.stripBodies names).program =
        { p with functions := p.functions.map (Func.strippedIn names) } := by
  induction names generalizing p with
  | nil =>
      have hid : p.functions.map (Func.strippedIn []) = p.functions :=
        (List.map_congr_left fun f _ => if_neg List.not_mem_nil).trans (List.map_id p.functions)
      refine ⟨false, rfl, ?_⟩
      rw [stripBodies, hid]
  | cons name names ih =>
      obtain ⟨b, hb, hfirst⟩ := p.stripBody_ok name
      obtain ⟨b', hb', hrest⟩ := ih (p.modify name Func.stripped)
      have hstep : ∀ f : Func, (if f.name = name then f.stripped else f).strippedIn names =
          f.strippedIn (name :: names) := by
        intro f
        simp only [Func.strippedIn, List.mem_cons]
        by_cases hname : f.name = name
        · rw [if_pos hname, if_pos (Or.inl hname)]
          split <;> rfl
        · rw [if_neg hname]
          simp only [hname, false_or]
      rw [← hfirst] at hb' hrest
      rw [stripBodies, Outcome.result_andThen hb, Outcome.result_andThen hb',
        Outcome.program_andThen hb, Outcome.program_andThen hb']
      refine ⟨b || b', rfl, ?_⟩
      rw [hrest, hfirst, modify]
      simp only [List.map_map, Function.comp_def, hstep]

/-! ## Zeros -/

theorem zeroAll_ok {gs : List Global}
    (h : ∀ g ∈ gs, g.needsZero = true → ∃ zero, Constant.zeroOf? g.ty = some zero) :
    ∃ events b, zeroAll gs = (gs.map Global.zeroed, events, .ok b) := by
  induction gs with
  | nil => exact ⟨[], false, rfl⟩
  | cons g gs ih =>
      obtain ⟨events, b, hrest⟩ := ih fun g' hg' => h g' (List.mem_cons_of_mem g hg')
      rw [zeroAll, List.map_cons, Global.zeroed]
      by_cases hneeds : g.needsZero = true
      · obtain ⟨zero, hzero⟩ := h g List.mem_cons_self hneeds
        rw [if_pos hneeds, if_pos hneeds, hzero, hrest]
        exact ⟨_, true, rfl⟩
      · rw [if_neg hneeds, if_neg hneeds, hrest]
        exact ⟨events, b, rfl⟩

theorem zeroGlobals_ok {p : Program}
    (h : ∀ g ∈ p.globals, g.needsZero = true → ∃ zero, Constant.zeroOf? g.ty = some zero) :
    ∃ b, p.zeroGlobals.result = .ok b ∧
      p.zeroGlobals.program = { p with globals := p.globals.map Global.zeroed } := by
  obtain ⟨events, b, hall⟩ := zeroAll_ok h
  exact ⟨b, by rw [zeroGlobals, hall], by rw [zeroGlobals, hall]⟩

/-! ## The entry table -/

theorem publishEntryTable_ok {p : Program} {c : Config} {plan : EntryPlan}
    (hfree : plan = .create → p.hasName c.entryTable = false) :
    (p.publishEntryTable c plan).result = .ok () ∧
      (p.publishEntryTable c plan).program = { p with globals := p.globals ++ plan.tables c } := by
  cases plan with
  | create =>
      have hname : p.hasName c.entryTableGlobal.name = false := hfree rfl
      rw [publishEntryTable, addGlobal, hname]
      exact ⟨rfl, rfl⟩
  | keep =>
      rw [publishEntryTable, EntryPlan.tables, List.append_nil]
      exact ⟨rfl, rfl⟩

/-! ## The stage -/

theorem prepareEntry_of_error {p : Program} {c : Config} {e : Error}
    (h : p.entryPlan c = .error e) : p.prepareEntry c = .check p (.error e) := by
  rw [prepareEntry, h]
  rfl

/-- Once the check has passed no step fails, and the last one leaves the prepared
program. -/
theorem prepareEntry_steps {p : Program} {c : Config} {plan : EntryPlan}
    (h : p.entryPlan c = .ok plan) :
    (∃ b, (p.stripBodies c.stripped).result = .ok b) ∧
      (∃ b, (p.stripBodies c.stripped).program.zeroGlobals.result = .ok b) ∧
      ((p.stripBodies c.stripped).program.zeroGlobals.program.publishEntryTable c plan).result =
        .ok () ∧
      ((p.stripBodies c.stripped).program.zeroGlobals.program.publishEntryTable c plan).program =
        p.prepared c plan := by
  obtain ⟨-, hzeros, -, -⟩ := entryPlan_eq_ok h
  obtain ⟨b, hb, hstrip⟩ := p.stripBodies_ok c.stripped
  obtain ⟨b', hb', hzero⟩ := zeroGlobals_ok (p := (p.stripBodies c.stripped).program)
    (by rw [hstrip]; exact hzeros)
  have hfree : plan = .create →
      (p.stripBodies c.stripped).program.zeroGlobals.program.hasName c.entryTable = false := by
    rintro rfl
    rw [hasName_congr (p := p), hasName_entryTable h]
    · rw [hzero, hstrip]
      simp only [List.map_map, Function.comp_def, Func.strippedIn_name]
    · rw [hzero, hstrip]
      simp only [List.map_map, Function.comp_def, Global.zeroed_name]
  obtain ⟨hok, hpublish⟩ := publishEntryTable_ok (c := c) hfree
  refine ⟨⟨b, hb⟩, ⟨b', hb'⟩, hok, ?_⟩
  rw [hpublish, hzero, hstrip]
  rfl

theorem prepareEntry_of_ok {p : Program} {c : Config} {plan : EntryPlan}
    (h : p.entryPlan c = .ok plan) :
    (p.prepareEntry c).result = .ok true ∧ (p.prepareEntry c).program = p.prepared c plan := by
  obtain ⟨⟨b, hb⟩, ⟨b', hb'⟩, hok, hprogram⟩ := prepareEntry_steps h
  have hcheck : (Outcome.check p (p.entryPlan c)).result = .ok plan := h
  rw [prepareEntry, Outcome.result_andThen hcheck, Outcome.program_andThen hcheck,
    Outcome.check_program, Outcome.result_andThen hb, Outcome.program_andThen hb,
    Outcome.result_andThen hb', Outcome.program_andThen hb', Outcome.result_andThen hok,
    Outcome.program_andThen hok]
  exact ⟨rfl, hprogram⟩

theorem prepareEntry_eq_ok {p : Program} {c : Config} {b : Bool} :
    (p.prepareEntry c).result = .ok b ↔ b = true ∧ ∃ plan, p.entryPlan c = .ok plan := by
  cases hplan : p.entryPlan c with
  | error e =>
      rw [prepareEntry_of_error hplan]
      exact ⟨nofun, nofun⟩
  | ok plan =>
      rw [(prepareEntry_of_ok hplan).1, Except.ok.injEq, eq_comm]
      exact ⟨fun h => ⟨h, plan, rfl⟩, fun h => h.1⟩

end Program

end ClosedWorld

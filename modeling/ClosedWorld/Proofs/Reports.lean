import ClosedWorld.Proofs.Run

/-!
# What a run reports

The report of a run consists of the diagnostics of its stages, one stage after
another, and this file says what those are. Elimination reports each doomed
call, in reading order, with the function that it stands in. Preparation reports
the stripped functions that had a body, then the globals that lacked a zero, and
then what has become of the table.

`Config.runStages_report` is the induction that goes with it. What relates a
program to what one stage makes of it and to what that stage reports, and
composes, relates the two ends of a run and its whole report.
-/

namespace ClosedWorld

/-! ## Diagnostics among events -/

namespace Outcome

variable {α β : Type}

theorem diagnostics_andThen {o : Outcome α} {a : α} (h : o.result = .ok a)
    (next : Program → α → Outcome β) :
    (o.andThen next).diagnostics = o.diagnostics ++ (next o.program a).diagnostics := by
  simp only [andThen, h, diagnostics, List.filterMap_append]

theorem diagnostics_of_events {o : Outcome α} {ds : List Diagnostic}
    (h : o.events = ds.map .diagnostic) : o.diagnostics = ds := by
  rw [diagnostics, h, List.filterMap_map]
  exact List.filterMap_some

end Outcome

/-! ## Unsupported calls -/

theorem Config.checkUnsupported_diagnostics {c : Config} {p : Program} {d : Diagnostic}
    (hd : d ∈ (p.checkUnsupported c).diagnostics) : d.kind = .unsupportedCall := by
  rw [Program.checkUnsupported] at hd
  split at hd
  · rw [Outcome.diagnostics_of_events (List.map_map ..).symm] at hd
    obtain ⟨u, -, rfl⟩ := List.mem_map.mp hd
    rfl
  · cases hd

/-! ## The reports of changes -/

namespace Diagnostic

/-- A call in the function `caller` was removed. -/
def removed (caller : String) (call : Call) : Diagnostic :=
  { kind := .removedCall, symbol := call.callee.callee?.getD "", caller := some caller }

/-- The function of this name lost its body. -/
def stripped (name : String) : Diagnostic := { kind := .strippedBody, symbol := name }

/-- The global of this name got a zero. -/
def initialized (name : String) : Diagnostic := { kind := .initializedGlobal, symbol := name }

end Diagnostic

/-- What is reported of the table. -/
def EntryPlan.report (c : Config) : EntryPlan → Diagnostic
  | .create => { kind := .entryTableCreated, symbol := c.entryTable }
  | .keep => { kind := .entryTableKept, symbol := c.entryTable }

/-! ## Removed calls -/

theorem Func.applyReplacements_diagnostics (f : Func) (rs : List Removal) :
    (f.applyReplacements rs).2.filterMap Event.diagnostic? =
      rs.map fun removal =>
        { kind := .removedCall, symbol := removal.callee, caller := some f.name } := by
  induction rs generalizing f with
  | nil => rfl
  | cons removal rs ih =>
      rw [applyReplacements, List.map_cons]
      cases hr : removal.replacement with
      | none => exact congrArg (_ :: ·) (ih f)
      | some z =>
          obtain ⟨r, zero⟩ := z
          have hname : (f.replaceUses r (.const zero)).1.name = f.name := by
            rw [replaceUses_fst, mapInstrs]
          have ih := ih (f.replaceUses r (.const zero)).1
          rw [hname] at ih
          exact congrArg (_ :: ·) ih

namespace Program

theorem deleteUndefined_diagnostics {p : Program} {c : Config} {b : Bool}
    (h : (p.deleteUndefined c).result = .ok b) :
    (p.deleteUndefined c).diagnostics =
      p.functions.flatMap fun f =>
        (f.calls.filter (p.dooms c.trustList)).map (Diagnostic.removed f.name) := by
  cases hplan : p.removalPlan c.trustList with
  | error e =>
      rw [deleteUndefined, hplan] at h
      cases h
  | ok plan =>
      have hfunction : ∀ f : Func,
          ((f.placedCalls.filter fun s => p.dooms c.trustList s.call).map PlacedCall.removal).map
            (fun removal => ({ kind := .removedCall, symbol := removal.callee,
                               caller := some f.name } : Diagnostic)) =
          (f.calls.filter (p.dooms c.trustList)).map (Diagnostic.removed f.name) := by
        intro f
        rw [← f.map_call_placedCalls, List.filter_map, List.map_map, List.map_map]
        rfl
      rw [deleteUndefined, hplan, Outcome.diagnostics, (removalPlan_eq_ok hplan).2]
      simp only [List.map_map, Function.comp_def, List.flatMap_map, List.filterMap_flatMap,
        Func.applyReplacements_diagnostics, hfunction]

/-! ## Stripped bodies -/

theorem function?_modify (p : Program) (name other : String) {k : Func → Func}
    (hk : ∀ f, (k f).name = f.name) :
    (p.modify name k).function? other =
      if other = name then (p.function? other).map k else p.function? other := by
  have hnames : ∀ f : Func, (if f.name = name then k f else f).name = f.name := by
    intro f
    split
    · exact hk f
    · rfl
  rw [function?_map (p := p) hnames rfl]
  cases hf : p.function? other with
  | none => split <;> rfl
  | some f =>
      rw [Option.map_some, Option.map_some, function?_name hf]
      split <;> rfl

theorem strippedNote_diagnostics (name : String) :
    (strippedNote name).filterMap Event.diagnostic? = [] := by
  rw [strippedNote]
  split
  · rfl
  · split <;> rfl

/-- The function is there, and it has a body. -/
def HasBody (p : Program) (name : String) : Prop :=
  ∃ f, p.function? name = some f ∧ f.isDeclaration = false

theorem hasBody_eliminate {p : Program} {t : TrustList} {name : String} :
    (p.eliminate t).HasBody name ↔ p.HasBody name := by
  simp only [HasBody, function?_eliminate, Option.map_eq_some_iff]
  constructor
  · rintro ⟨-, ⟨f, hf, rfl⟩, hbody⟩
    exact ⟨f, hf, (Func.isDeclaration_eliminate _ f).symm.trans hbody⟩
  · rintro ⟨f, hf, hbody⟩
    exact ⟨_, ⟨f, hf, rfl⟩, (Func.isDeclaration_eliminate _ f).trans hbody⟩

theorem hasBody_prepared {p : Program} {c : Config} {plan : EntryPlan} {name : String} :
    (p.prepared c plan).HasBody name ↔ p.HasBody name ∧ name ∉ c.stripped := by
  by_cases hmem : name ∈ c.stripped
  · refine ⟨?_, fun h => absurd hmem h.2⟩
    rintro ⟨f', hf', hbody⟩
    rw [function?_prepared] at hf'
    obtain ⟨f, hf, rfl⟩ := Option.map_eq_some_iff.mp hf'
    rw [Func.strippedIn, function?_name hf, if_pos hmem] at hbody
    cases hbody
  · rw [HasBody, HasBody, function?_prepared_of_kept hmem]
    exact (and_iff_left hmem).symm

theorem stripBody_diagnostics (p : Program) (name : String) :
    (p.stripBody name).diagnostics =
      if (p.function? name).any (!·.isDeclaration) then [.stripped name] else [] := by
  rw [stripBody]
  cases hf : p.function? name with
  | none => rfl
  | some f =>
      rw [Option.any_some]
      simp only []
      split
      · next hdecl =>
          rw [hdecl]
          rfl
      · next hdecl =>
          rw [Bool.eq_false_iff.mpr hdecl, Outcome.diagnostics, List.filterMap_cons,
            Event.diagnostic?, strippedNote_diagnostics]
          rfl

theorem mem_stripBody_diagnostics {p : Program} {name : String} {d : Diagnostic} :
    d ∈ (p.stripBody name).diagnostics ↔
      d = .stripped name ∧ p.HasBody name := by
  rw [stripBody_diagnostics, HasBody]
  cases p.function? name with
  | none => simp
  | some f => cases hdecl : f.isDeclaration <;> simp [hdecl]

theorem stripBodies_cons_diagnostics (p : Program) (name : String) (names : List String) :
    (p.stripBodies (name :: names)).diagnostics =
      (p.stripBody name).diagnostics ++
        ((p.stripBody name).program.stripBodies names).diagnostics := by
  obtain ⟨b, hb, -⟩ := p.stripBody_ok name
  obtain ⟨b', hb', -⟩ := (p.stripBody name).program.stripBodies_ok names
  rw [stripBodies, Outcome.diagnostics_andThen hb, Outcome.diagnostics_andThen hb']
  exact congrArg _ (List.append_nil _)

/-- What has been stripped has no body any more, and nothing else has lost its. -/
theorem hasBody_stripBody {p : Program} {name other : String} :
    (p.stripBody name).program.HasBody other ↔ other ≠ name ∧ p.HasBody other := by
  obtain ⟨-, -, hprogram⟩ := p.stripBody_ok name
  rw [HasBody, HasBody, hprogram, function?_modify p name other (k := Func.stripped) fun _ => rfl]
  by_cases hother : other = name
  · rw [if_pos hother]
    refine ⟨?_, fun h => absurd hother h.1⟩
    rintro ⟨f', hf', hdecl⟩
    obtain ⟨f, -, rfl⟩ := Option.map_eq_some_iff.mp hf'
    cases hdecl
  · rw [if_neg hother]
    exact ⟨fun h => ⟨hother, h⟩, fun h => h.2⟩

theorem mem_stripBodies_diagnostics {p : Program} {names : List String} {d : Diagnostic} :
    d ∈ (p.stripBodies names).diagnostics ↔
      ∃ name ∈ names, d = .stripped name ∧ p.HasBody name := by
  induction names generalizing p with
  | nil =>
      refine ⟨fun h => absurd h List.not_mem_nil, ?_⟩
      rintro ⟨name, hname, -⟩
      cases hname
  | cons name names ih =>
      rw [stripBodies_cons_diagnostics, List.mem_append, mem_stripBody_diagnostics, ih]
      simp only [List.mem_cons, exists_eq_or_imp, hasBody_stripBody]
      constructor
      · rintro (h | ⟨other, hmem, hd, -, hother⟩)
        · exact Or.inl h
        · exact Or.inr ⟨other, hmem, hd, hother⟩
      · rintro (h | ⟨other, hmem, hd, hother⟩)
        · exact Or.inl h
        · by_cases heq : other = name
          · exact Or.inl (heq ▸ ⟨hd, hother⟩)
          · exact Or.inr ⟨other, hmem, hd, heq, hother⟩

/-- However often a function is listed, the loss of its body is reported once. -/
theorem nodup_stripBodies_diagnostics (p : Program) (names : List String) :
    ((p.stripBodies names).diagnostics.map (·.symbol)).Nodup := by
  induction names generalizing p with
  | nil => exact List.nodup_nil
  | cons name names ih =>
      rw [stripBodies_cons_diagnostics, List.map_append]
      refine List.nodup_append.mpr ⟨?_, ih _, ?_⟩
      · rw [stripBody_diagnostics]
        split
        · exact List.pairwise_singleton _ _
        · exact List.nodup_nil
      · rintro symbol hfirst symbol' hrest rfl
        obtain ⟨d, hd, rfl⟩ := List.mem_map.mp hfirst
        obtain ⟨d', hd', hsymbol⟩ := List.mem_map.mp hrest
        obtain ⟨rfl, -⟩ := mem_stripBody_diagnostics.mp hd
        obtain ⟨other, -, rfl, hbody⟩ := mem_stripBodies_diagnostics.mp hd'
        exact (hasBody_stripBody.mp hbody).1 hsymbol

/-- Stripping reports what it finds under the names that it is given. -/
theorem stripBodies_diagnostics_congr {p q : Program} (h : q.function? = p.function?)
    (names : List String) :
    (q.stripBodies names).diagnostics = (p.stripBodies names).diagnostics := by
  induction names generalizing p q with
  | nil => rfl
  | cons name names ih =>
      have hrest : (q.stripBody name).program.function? = (p.stripBody name).program.function? := by
        obtain ⟨-, -, hp⟩ := p.stripBody_ok name
        obtain ⟨-, -, hq⟩ := q.stripBody_ok name
        funext other
        rw [hp, hq, function?_modify p name other (k := Func.stripped) fun _ => rfl,
          function?_modify q name other (k := Func.stripped) fun _ => rfl, h]
      rw [stripBodies_cons_diagnostics, stripBodies_cons_diagnostics, ih hrest,
        stripBody_diagnostics, stripBody_diagnostics, h]

/-! ## Zeros and the table -/

theorem zeroAll_events {gs : List Global}
    (h : ∀ g ∈ gs, g.needsZero = true → ∃ zero, Constant.zeroOf? g.ty = some zero) :
    (zeroAll gs).2.1 =
      (gs.filter Global.needsZero).map fun g => .diagnostic (.initialized g.name) := by
  induction gs with
  | nil => rfl
  | cons g gs ih =>
      have ih := ih fun g' hg' => h g' (List.mem_cons_of_mem g hg')
      rw [zeroAll]
      by_cases hneeds : g.needsZero = true
      · obtain ⟨zero, hzero⟩ := h g List.mem_cons_self hneeds
        rw [if_pos hneeds, hzero, List.filter_cons_of_pos hneeds, List.map_cons, ← ih]
        rfl
      · rw [if_neg hneeds, List.filter_cons_of_neg hneeds, ← ih]

theorem zeroGlobals_diagnostics {p : Program}
    (h : ∀ g ∈ p.globals, g.needsZero = true → ∃ zero, Constant.zeroOf? g.ty = some zero) :
    p.zeroGlobals.diagnostics =
      (p.globals.filter Global.needsZero).map fun g => .initialized g.name := by
  refine Outcome.diagnostics_of_events ?_
  rw [zeroGlobals, List.map_map]
  exact zeroAll_events h

theorem publishEntryTable_diagnostics {p : Program} {c : Config} {plan : EntryPlan}
    (h : (p.publishEntryTable c plan).result = .ok ()) :
    (p.publishEntryTable c plan).diagnostics = [plan.report c] := by
  cases plan with
  | keep => rfl
  | create =>
      rw [publishEntryTable] at h ⊢
      cases hadd : p.addGlobal c.entryTableGlobal with
      | ok q => rfl
      | error e =>
          rw [hadd] at h
          cases h

theorem prepareEntry_diagnostics {p : Program} {c : Config} {plan : EntryPlan}
    (h : p.entryPlan c = .ok plan) :
    (p.prepareEntry c).diagnostics =
      (p.stripBodies c.stripped).diagnostics ++
        (((p.globals.filter Global.needsZero).map fun g => .initialized g.name) ++
          [plan.report c]) := by
  obtain ⟨⟨b, hb⟩, ⟨b', hb'⟩, hok, -⟩ := prepareEntry_steps h
  have hglobals : (p.stripBodies c.stripped).program.globals = p.globals := by
    obtain ⟨-, -, hstrip⟩ := p.stripBodies_ok c.stripped
    rw [hstrip]
  have hzeros := zeroGlobals_diagnostics (p := (p.stripBodies c.stripped).program)
    (by rw [hglobals]; exact (entryPlan_eq_ok h).2.1)
  rw [hglobals] at hzeros
  have hcheck : (Outcome.check p (p.entryPlan c)).result = .ok plan := h
  rw [prepareEntry, Outcome.diagnostics_andThen hcheck, Outcome.check_program,
    Outcome.diagnostics_andThen hb, Outcome.diagnostics_andThen hb',
    Outcome.diagnostics_andThen hok, hzeros, publishEntryTable_diagnostics hok]
  rfl

end Program

/-! ## Stages and runs -/

namespace Config

variable {c : Config} {p : Program}

theorem runNoted_diagnostics {s : Stage} {b : Bool} (h : (c.runStage p s).result = .ok b) :
    (c.runNoted p s).diagnostics = (c.runStage p s).diagnostics := by
  rw [runNoted, Outcome.noting, Outcome.diagnostics_andThen h]
  exact List.append_nil _

theorem runStages_cons_diagnostics {s : Stage} {ss : List Stage} {b b' : Bool}
    (h : (c.runStage p s).result = .ok b)
    (hrest : (c.runStages (c.runStage p s).program ss).result = .ok b') :
    (c.runStages p (s :: ss)).diagnostics =
      (c.runStage p s).diagnostics ++ (c.runStages (c.runStage p s).program ss).diagnostics := by
  have hnoted : (c.runNoted p s).result = .ok b := by rw [runNoted_result, h]
  rw [runStages, Outcome.diagnostics_andThen hnoted, runNoted_diagnostics h, runNoted_program,
    Outcome.diagnostics_andThen hrest]
  exact congrArg _ (List.append_nil _)

theorem runStages_append_of_ok {ss ss' : List Stage} {b b' : Bool}
    (h : (c.runStages p ss).result = .ok b)
    (h' : (c.runStages (c.runStages p ss).program ss').result = .ok b') :
    (c.runStages p (ss ++ ss')).program = (c.runStages (c.runStages p ss).program ss').program ∧
      (c.runStages p (ss ++ ss')).diagnostics =
        (c.runStages p ss).diagnostics ++
          (c.runStages (c.runStages p ss).program ss').diagnostics := by
  rw [runStages_append, Outcome.program_andThen h, Outcome.program_andThen h',
    Outcome.diagnostics_andThen h, Outcome.diagnostics_andThen h']
  exact ⟨rfl, congrArg _ (List.append_nil _)⟩

/-- What relates a program to what stages make of it and to what they report can
be shown stage by stage, from the last one on. -/
theorem runStages_report {R : List Stage → Program → Program → List Diagnostic → Prop}
    (hnil : ∀ p, R [] p p [])
    (hcons : ∀ s ss p b q ds, (c.runStage p s).result = .ok b →
      R ss (c.runStage p s).program q ds → R (s :: ss) p q ((c.runStage p s).diagnostics ++ ds))
    {ss : List Stage} {b : Bool} (h : (c.runStages p ss).result = .ok b) :
    R ss p (c.runStages p ss).program (c.runStages p ss).diagnostics := by
  induction ss generalizing p b with
  | nil => exact hnil p
  | cons s ss ih =>
      obtain ⟨b₁, b₂, hs, hrest, hprogram⟩ := runStages_cons_eq_ok h
      rw [hprogram, runStages_cons_diagnostics hs hrest]
      exact hcons s ss p b₁ _ _ hs (ih hrest)

theorem run_report {report : Report} (h : (c.run p).result = .ok report) :
    report.diagnostics = (c.runStages p c.stages).diagnostics := by
  obtain ⟨-, b, -, -, rfl⟩ := run_eq_ok_iff.mp h
  rfl

end Config

end ClosedWorld

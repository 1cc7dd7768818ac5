import ClosedWorld.Proofs.Provenance
import ClosedWorld.Proofs.Reports
import ClosedWorld.Proofs.Resolution

/-!
# The order of functions and globals

Members of a program are looked up by name, so the order of its lists should not
matter. Where it might is in the walks over the lists, which go from front to
back and stop at the first error. This file compares a run on a program with a
run on the same program rearranged, and finds that the second is the first
rearranged (`Config.run_rearranged`): if one goes through so does the other, and
the programs that they leave and the reports have the same members.

What makes it work is that nothing which decides about a success is found on the
way. Whether a call is doomed, whether it has a zero, what will become of the
table: each of these is a property of a member and of the lookups, and the
lookups agree because no name comes twice. So a walk goes through if all members
pass, in whatever order they come. Only the error of a run that fails depends on
who comes first.
-/

namespace ClosedWorld

theorem find?_name_perm {α : Type} {key : α → String} {as bs : List α}
    (h : (as.map key).Nodup) (hperm : as.Perm bs) (name : String) :
    bs.find? (key · == name) = as.find? (key · == name) := by
  have h' : (bs.map key).Nodup := (hperm.map key).nodup_iff.mp h
  refine Option.ext fun a => ?_
  rw [Program.find?_name_eq_some_iff h, Program.find?_name_eq_some_iff h', hperm.mem_iff]

namespace Program

/-- `q` is `p` with its functions and its globals in some order. -/
structure Rearranges (p q : Program) : Prop where
  name : p.name = q.name
  functions : p.functions.Perm q.functions
  globals : p.globals.Perm q.globals

theorem Rearranges.symm {p q : Program} (h : p.Rearranges q) : q.Rearranges p :=
  ⟨h.name.symm, h.functions.symm, h.globals.symm⟩

section Checks

variable {p q : Program} {c : Config} (hp : p.Keyed) (h : p.Rearranges q)
include hp h

/-! ## Lookups and checks -/

theorem Rearranges.keyed : q.Keyed :=
  ⟨(h.functions.map Func.name).nodup_iff.mp hp.1, (h.globals.map Global.name).nodup_iff.mp hp.2⟩

theorem Rearranges.function? : q.function? = p.function? := by
  funext name
  exact find?_name_perm hp.1 h.functions name

theorem Rearranges.global? : q.global? = p.global? := by
  funext name
  exact find?_name_perm hp.2 h.globals name

theorem Rearranges.defines : q.defines = p.defines := by
  funext s
  cases s with
  | func name => rw [Program.defines, Program.defines, h.function? hp]
  | global name => rw [Program.defines, Program.defines, h.global? hp]

theorem Rearranges.wellFormed (hwf : p.WellFormed) : q.WellFormed := by
  have hdefines := h.defines hp
  refine ⟨fun g hg => ?_, fun f hf => ?_⟩
  · obtain ⟨hnamed, hsymbols⟩ := hwf.globals g (h.globals.mem_iff.mpr hg)
    rw [← hdefines] at hsymbols
    exact ⟨hnamed, hsymbols⟩
  · obtain ⟨hnamed, hsymbols, hdefined, honce, hunbound⟩ :=
      hwf.functions f (h.functions.mem_iff.mpr hf)
    rw [← hdefines] at hsymbols
    exact ⟨hnamed, hsymbols, hdefined, honce, hunbound⟩

theorem Rearranges.verify (hverify : p.verify = .ok ()) : q.verify = .ok () :=
  verify_eq_ok_iff.mpr (h.wellFormed hp (verify_eq_ok_iff.mp hverify))

theorem Rearranges.resolved (hresolved : p.Resolved) : q.Resolved := by
  intro f hf call hcall name hname
  rw [h.function? hp]
  exact hresolved f (h.functions.mem_iff.mpr hf) call hcall name hname

theorem Rearranges.dooms (t : TrustList) : q.dooms t = p.dooms t := by
  funext call
  rw [Program.dooms, Program.dooms, h.function? hp]

theorem Rearranges.eliminable {t : TrustList} (heliminable : p.Eliminable t) : q.Eliminable t := by
  refine ⟨h.resolved hp heliminable.resolved, fun f hf => ?_⟩
  rw [h.dooms hp]
  exact heliminable.replaceable f (h.functions.mem_iff.mpr hf)

/-- Which global lacks a zero first depends on the order, but not whether one
does. -/
theorem Rearranges.entryPlan {plan : EntryPlan} (hplan : p.entryPlan c = .ok plan) :
    q.entryPlan c = .ok plan := by
  have hzeros : (q.globals.find? fun g => g.needsZero && (Constant.zeroOf? g.ty).isNone) =
      p.globals.find? fun g => g.needsZero && (Constant.zeroOf? g.ty).isNone := by
    have hnone : (p.globals.find? fun g => g.needsZero && (Constant.zeroOf? g.ty).isNone) = none := by
      rw [Program.entryPlan] at hplan
      split at hplan
      · cases hplan
      · split at hplan
        · cases hplan
        · assumption
    rw [hnone]
    refine List.find?_eq_none.mpr fun g hg => ?_
    exact List.find?_eq_none.mp hnone g (h.globals.mem_iff.mpr hg)
  rw [Program.entryPlan, h.function? hp, h.global? hp, hzeros]
  exact hplan

/-! ## What stages do -/

theorem Rearranges.eliminate (t : TrustList) : (p.eliminate t).Rearranges (q.eliminate t) where
  name := h.name
  functions := by
    rw [Program.eliminate, Program.eliminate, h.dooms hp]
    exact h.functions.map _
  globals := h.globals

omit hp in
theorem Rearranges.prepared (plan : EntryPlan) :
    (p.prepared c plan).Rearranges (q.prepared c plan) where
  name := h.name
  functions := h.functions.map _
  globals := (h.globals.map _).append_right _

end Checks

/-! ## What stages report -/

theorem Resolved.checkUnsupported_diagnostics {p : Program} (hp : p.Resolved) (c : Config) :
    (p.checkUnsupported c).diagnostics =
      (p.callSites.filterMap (·.unsupported? c.unsupported)).map UnsupportedCall.diagnostic := by
  rw [checkUnsupported, hp.unsupportedCalls]
  exact Outcome.diagnostics_of_events (List.map_map ..).symm

end Program

/-! ## Stages -/

namespace Config

variable {c : Config} {p q : Program}

theorem runStage_rearranged (hp : p.Keyed) (h : p.Rearranges q) {s : Stage} {b : Bool}
    (hs : (c.runStage p s).result = .ok b) :
    (c.runStage q s).result = .ok b ∧
      (c.runStage p s).program.Rearranges (c.runStage q s).program ∧
      (c.runStage p s).diagnostics.Perm (c.runStage q s).diagnostics := by
  cases s with
  | checkUnsupported =>
      obtain ⟨hb, hresolved⟩ := Program.checkUnsupported_eq_ok.mp hs
      have hresolved' := h.resolved hp hresolved
      refine ⟨Program.checkUnsupported_eq_ok.mpr ⟨hb, hresolved'⟩, ?_, ?_⟩
      · rw [runStage, runStage, Program.checkUnsupported_program, Program.checkUnsupported_program]
        exact h
      · rw [runStage, runStage, hresolved.checkUnsupported_diagnostics,
          hresolved'.checkUnsupported_diagnostics]
        exact ((h.functions.flatMap_right _).filterMap _).map _
  | deleteUndefined =>
      rw [runStage] at hs
      obtain ⟨heliminable, hb⟩ := Program.deleteUndefined_eq_ok.mp hs
      have hany : (q.functions.any fun f => f.calls.any (p.dooms c.trustList)) =
          p.functions.any fun f => f.calls.any (p.dooms c.trustList) := h.functions.any_eq.symm
      have hs' : (q.deleteUndefined c).result = .ok b := by
        refine Program.deleteUndefined_eq_ok.mpr ⟨h.eliminable hp heliminable, ?_⟩
        rw [h.dooms hp, hany]
        exact hb
      refine ⟨hs', ?_, ?_⟩
      · rw [runStage, runStage, Program.deleteUndefined_program hs,
          Program.deleteUndefined_program hs']
        exact h.eliminate hp c.trustList
      · rw [runStage, runStage, Program.deleteUndefined_diagnostics hs,
          Program.deleteUndefined_diagnostics hs', h.dooms hp]
        exact h.functions.flatMap_right _
  | prepare =>
      rw [runStage] at hs
      obtain ⟨hb, plan, hplan⟩ := Program.prepareEntry_eq_ok.mp hs
      have hplan' : q.entryPlan c = .ok plan := h.entryPlan hp hplan
      refine ⟨Program.prepareEntry_eq_ok.mpr ⟨hb, plan, hplan'⟩, ?_, ?_⟩
      · rw [runStage, runStage, (Program.prepareEntry_of_ok hplan).2,
          (Program.prepareEntry_of_ok hplan').2]
        exact h.prepared plan
      · rw [runStage, runStage, Program.prepareEntry_diagnostics hplan,
          Program.prepareEntry_diagnostics hplan',
          Program.stripBodies_diagnostics_congr (h.function? hp)]
        exact (((h.globals.filter _).map _).append_right _).append_left _

theorem runStages_rearranged (hp : p.Keyed) (h : p.Rearranges q) {ss : List Stage} {b : Bool}
    (hs : (c.runStages p ss).result = .ok b) :
    (c.runStages q ss).result = .ok b ∧
      (c.runStages p ss).program.Rearranges (c.runStages q ss).program ∧
      (c.runStages p ss).diagnostics.Perm (c.runStages q ss).diagnostics := by
  induction ss generalizing p q b with
  | nil => exact ⟨hs, h, .refl _⟩
  | cons s ss ih =>
      obtain ⟨b₁, b₂, hfirst, hrest, hprogram⟩ := runStages_cons_eq_ok hs
      obtain ⟨hfirst', hstage, hnoted⟩ := runStage_rearranged hp h hfirst
      obtain ⟨hrest', hstages, hlater⟩ := ih (keyed_runStage hp s) hstage hrest
      obtain ⟨-, hresult⟩ := runStages_cons_of_ok ss hfirst
      obtain ⟨hprogram', hresult'⟩ := runStages_cons_of_ok ss hfirst'
      refine ⟨?_, ?_, ?_⟩
      · rw [hresult', hrest', ← hs, hresult, hrest]
      · rw [hprogram, hprogram']
        exact hstages
      · rw [runStages_cons_diagnostics hfirst hrest, runStages_cons_diagnostics hfirst' hrest']
        exact hnoted.append hlater

/-! ## Runs -/

/-- A run that goes through goes through on the program rearranged. -/
theorem run_of_rearranges (hp : p.Keyed) (h : p.Rearranges q) {report : Report}
    (hrun : (c.run p).result = .ok report) :
    ∃ report', (c.run q).result = .ok report' ∧
      (c.run p).program.Rearranges (c.run q).program ∧
      report.diagnostics.Perm report'.diagnostics ∧ report.modified = report'.modified := by
  obtain ⟨hpre, b, hs, hout, rfl⟩ := run_eq_ok_iff.mp hrun
  obtain ⟨hcheck, hin, hplan⟩ := preconditions_eq_ok hpre
  obtain ⟨hs', hprogram, hdiagnostics⟩ := runStages_rearranged hp h hs
  have hpre' : c.preconditions q = .ok () := by
    refine preconditions_of_ok hcheck (fun hverify => h.verify hp (hin hverify)) fun hmem => ?_
    obtain ⟨plan, hplan⟩ := hplan hmem
    exact ⟨plan, h.entryPlan hp hplan⟩
  have hkeyed : (c.runStages p c.stages).program.Keyed :=
    runStages_preserves (P := Program.Keyed) (fun s _ _ hp => keyed_runStage hp s) hp
  have hrun' := run_eq_ok_iff.mpr
    ⟨hpre', b, hs', fun hverify => hprogram.verify hkeyed (hout hverify), rfl⟩
  refine ⟨_, hrun', ?_, hdiagnostics, rfl⟩
  rw [(run_of_stages_ok hpre hs).1, (run_of_stages_ok hpre' hs').1]
  exact hprogram

/-- **Runs do not depend on the order of functions and globals.** On a program
and on the same program rearranged they both go through or both fail. If they go
through they leave the same program, rearranged, and report the same, in some
order. -/
theorem run_rearranged (hp : p.Keyed) (h : p.Rearranges q) :
    ((∃ report, (c.run p).result = .ok report) ↔ ∃ report, (c.run q).result = .ok report) ∧
      ∀ report report', (c.run p).result = .ok report → (c.run q).result = .ok report' →
        (c.run p).program.Rearranges (c.run q).program ∧
          report.diagnostics.Perm report'.diagnostics ∧ report.modified = report'.modified := by
  refine ⟨⟨?_, ?_⟩, ?_⟩
  · intro ⟨report, hrun⟩
    obtain ⟨report', hrun', -⟩ := run_of_rearranges hp h hrun
    exact ⟨report', hrun'⟩
  · intro ⟨report', hrun'⟩
    obtain ⟨report, hrun, -⟩ := run_of_rearranges (h.keyed hp) h.symm hrun'
    exact ⟨report, hrun⟩
  · intro report report' hrun hrun'
    obtain ⟨report'', hsame, hall⟩ := run_of_rearranges hp h hrun
    cases hrun'.symm.trans hsame
    exact hall

/-- A program in which two functions lose a call and two globals get a zero. -/
def packing : Program where
  functions := [
    { name := "log", ret := .void },
    { name := "pack", ret := .void, body := some [
      { label := "entry", instrs := [.call ⟨none, .void, .func "log", []⟩, .ret none] }] },
    { name := "main", ret := .int 32, body := some [
      { label := "entry", instrs := [
        .call ⟨none, .void, .func "pack", []⟩,
        .call ⟨none, .void, .func "log", []⟩,
        .ret (some (.const (.int 32 0)))] }] }]
  globals := [{ name := "reads", ty := .int 32 }, { name := "writes", ty := .int 64 }]

theorem run_rearranged_packing :
    let c : Config := {}
    let q : Program := { functions := packing.functions.reverse
                         globals := packing.globals.reverse }
    packing.Keyed ∧ packing.Rearranges q ∧
      ∃ report report', (c.run packing).result = .ok report ∧ (c.run q).result = .ok report' ∧
        (c.run packing).program ≠ (c.run q).program ∧
        (c.run packing).program.Rearranges (c.run q).program ∧
        report.diagnostics ≠ report'.diagnostics ∧
        report.diagnostics.Perm report'.diagnostics ∧ report'.modified = true := by
  intro c q
  have hp : packing.Keyed := by decide +kernel
  have h : packing.Rearranges q := ⟨rfl, (List.reverse_perm _).symm, (List.reverse_perm _).symm⟩
  have hok : (c.run packing).result.isOk = true := by decide +kernel
  have hprograms : (c.run packing).program ≠ (c.run q).program := by decide +kernel
  have hreports : (c.run packing).result.toOption.map Report.diagnostics ≠
        (c.run q).result.toOption.map Report.diagnostics ∧
      (c.run packing).result.toOption.map Report.modified = some true := by decide +kernel
  obtain ⟨report, hrun⟩ := exists_of_isOk hok
  obtain ⟨hiff, hall⟩ := run_rearranged (c := c) hp h
  obtain ⟨report', hrun'⟩ := hiff.mp ⟨report, hrun⟩
  obtain ⟨hprogram, hdiagnostics, hmodified⟩ := hall report report' hrun hrun'
  rw [hrun, hrun'] at hreports
  obtain ⟨hreports, hchanged⟩ := hreports
  exact ⟨hp, h, report, report', hrun, hrun', hprograms, hprogram,
    fun heq => hreports (congrArg some heq), hdiagnostics,
    hmodified.symm.trans (Option.some.inj hchanged)⟩

/-- Where there are two reasons to fail, the order settles which of them is told. -/
example :
    let c : Config := {}
    let main : Func := { name := "main", ret := .void }
    let hook : Global := { name := "hook", ty := .func .void [] false }
    let trap : Global := { name := "trap", ty := .void }
    let p : Program := { functions := [main], globals := [hook, trap] }
    let q : Program := { functions := [main], globals := [trap, hook] }
    (c.run p).result = .error (.noZeroValue "hook" (.func .void [] false)) ∧
      (c.run q).result = .error (.noZeroValue "trap" .void) := ⟨rfl, rfl⟩

end Config

end ClosedWorld

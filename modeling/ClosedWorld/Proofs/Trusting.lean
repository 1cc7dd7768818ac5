import ClosedWorld.Proofs.Removals
import ClosedWorld.Proofs.Sparing

/-!
# Trusting more functions

The more functions are trusted to exist, the fewer calls are doomed. So whatever
ends an elimination under a longer list ends it under a shorter one too, and the
calls removed under the longer list are those of the shorter without the ones
that lead to a function which only the longer list trusts.

Elimination can also be done in two steps, first with the longer list and then
with the shorter, and nothing shows of the step between
(`Program.deleteUndefined_staged`). For the calls this is plain, as whether a call is
doomed depends on its callee alone, and no elimination touches that. It is less
plain for the zeros. A register becomes the zero of the first doomed call that
binds it, and of two calls that bind one register the first could be doomed by the
shorter list alone. In two steps the second call would then have its say before the
first. This is where it matters that no register is defined twice
(`Func.zeroFor?_eliminate`).
-/

namespace ClosedWorld

/-- What the one list trusts the other trusts too. -/
def TrustList.Within (t t' : TrustList) : Prop :=
  ∀ name, t.trusts name = true → t'.trusts name = true

/-! ## One function -/

namespace Func

variable {doomed doomed' : Call → Bool} {f : Func}

theorem nodup_definedRegs_eliminate (honce : f.definedRegs.Nodup) :
    (f.eliminate doomed).definedRegs.Nodup := by
  rw [definedRegs_eliminate]
  exact honce.sublist (List.filter_sublist.filterMap _)

/-- What a first elimination puts in place of a register, and a second one where
the first puts nothing, is what the second would have put there alone. -/
theorem zeroFor?_eliminate (honce : f.definedRegs.Nodup)
    (hfewer : ∀ c, doomed' c = true → doomed c = true)
    (hcallee : ∀ c σ, doomed (c.mapOperands (·.substitute σ)) = doomed c) (r : Reg) :
    (f.zeroFor? doomed' r).or ((f.eliminate doomed').zeroFor? doomed r) =
      f.zeroFor? doomed r := by
  cases hfirst : f.zeroFor? doomed' r with
  | some zero =>
      obtain ⟨c, hc, hd, hrest⟩ := (zeroFor?_eq_some_iff honce).mp hfirst
      exact ((zeroFor?_eq_some_iff honce).mpr ⟨c, hc, hfewer c hd, hrest⟩).symm
  | none =>
      refine Option.ext fun zero => ?_
      rw [Option.none_or, zeroFor?_eq_some_iff (nodup_definedRegs_eliminate honce),
        zeroFor?_eq_some_iff honce]
      constructor
      · rintro ⟨c', hc', hd, hrest⟩
        obtain ⟨c, hc, -, rfl⟩ := mem_calls_eliminate.mp hc'
        exact ⟨c, hc, (hcallee c _).symm.trans hd, hrest⟩
      · rintro ⟨c, hc, hd, hrest⟩
        -- The first elimination has spared the call, or it would have had a zero.
        have hspared : doomed' c = false := by
          refine Bool.eq_false_iff.mpr fun hd' => ?_
          rw [(zeroFor?_eq_some_iff honce).mpr ⟨c, hc, hd', hrest⟩] at hfirst
          cases hfirst
        exact ⟨_, mem_calls_eliminate.mpr ⟨c, hc, hspared, rfl⟩, (hcallee c _).trans hd, hrest⟩

/-- Of two eliminations in a row, the second of which dooms all that the first
does, the second alone leaves the same. -/
theorem eliminate_eliminate (honce : f.definedRegs.Nodup)
    (hfewer : ∀ c, doomed' c = true → doomed c = true)
    (hcallee : ∀ c σ, doomed (c.mapOperands (·.substitute σ)) = doomed c) :
    (f.eliminate doomed').eliminate doomed = f.eliminate doomed := by
  have hdoomed : (fun c => doomed' c || doomed c) = doomed := by
    funext c
    cases hd : doomed' c with
    | false => rfl
    | true => exact (hfewer c hd).symm
  have hdrop : (f.eliminate doomed').dropCalls doomed =
      (f.dropCalls doomed).mapInstrs (·.mapOperands (·.substitute (f.zeroFor? doomed'))) := by
    rw [eliminate, dropCalls_mapInstrs, dropCalls_dropCalls]
    simp only [hcallee, hdoomed]
  calc (f.eliminate doomed').eliminate doomed
    _ = ((f.eliminate doomed').dropCalls doomed).mapInstrs
          (·.mapOperands (·.substitute ((f.eliminate doomed').zeroFor? doomed))) := rfl
    _ = (f.dropCalls doomed).mapInstrs (·.mapOperands (·.substitute fun r =>
          (f.zeroFor? doomed' r).or ((f.eliminate doomed').zeroFor? doomed r))) := by
        rw [hdrop, mapInstrs_mapInstrs]
        simp only [Instr.mapOperands_mapOperands, Operand.substitute_substitute]
    _ = f.eliminate doomed := by
        simp only [zeroFor?_eliminate honce hfewer hcallee]
        rfl

end Func

/-! ## One program -/

namespace Program

variable {p : Program} {t t' : TrustList}

theorem dooms_substitute (p : Program) (t : TrustList) (call : Call) (σ : Reg → Option Constant) :
    p.dooms t (call.mapOperands (·.substitute σ)) = p.dooms t call := by
  rw [dooms, dooms, Call.mapOperands, Operand.callee?_substitute]

/-- Elimination takes no function's body away and gives none to any, so the calls
that are doomed stay the same. -/
theorem dooms_eliminate (p : Program) (t t' : TrustList) :
    (p.eliminate t').dooms t = p.dooms t := by
  funext call
  rw [dooms, dooms]
  cases call.callee.callee? with
  | none => rfl
  | some name =>
      simp only [function?_eliminate, Option.any_map, Func.isDeclaration_eliminate]

/-- The calls doomed under the longer list are those of the shorter that do not
lead to a function which the longer trusts. -/
theorem dooms_of_within (h : t.Within t') (call : Call) :
    p.dooms t' call = (p.dooms t call && !t'.trusts (call.callee.callee?.getD "")) := by
  rw [dooms, dooms]
  cases call.callee.callee? with
  | none => rfl
  | some name =>
      simp only [Option.getD_some]
      cases htrust' : t'.trusts name with
      | true => simp
      | false =>
          have htrust : t.trusts name = false := by
            refine Bool.eq_false_iff.mpr fun htrust => ?_
            rw [h name htrust] at htrust'
            cases htrust'
          simp [htrust]

theorem dooms_mono (h : t.Within t') {call : Call} (hd : p.dooms t' call = true) :
    p.dooms t call = true := by
  rw [dooms_of_within h, Bool.and_eq_true] at hd
  exact hd.1

theorem Eliminable.mono (hp : p.Eliminable t) (h : t.Within t') : p.Eliminable t' :=
  ⟨hp.resolved, fun f hf call hcall hd => hp.replaceable f hf call hcall (dooms_mono h hd)⟩

theorem Eliminable.eliminate (hp : p.Eliminable t) (t' : TrustList) :
    (p.eliminate t').Eliminable t := by
  refine ⟨hp.resolved.eliminate t', fun f' hf' call' hcall' hd => ?_⟩
  obtain ⟨f, hf, rfl⟩ := List.mem_map.mp hf'
  obtain ⟨call, hcall, -, rfl⟩ := Func.mem_calls_eliminate.mp hcall'
  rw [dooms_eliminate, dooms_substitute] at hd
  exact hp.replaceable f hf call hcall hd

theorem WellFormed.eliminate_eliminate (hp : p.WellFormed) (h : t.Within t') :
    (p.eliminate t').eliminate t = p.eliminate t := by
  rw [Program.eliminate, dooms_eliminate]
  simp only [Program.eliminate, List.map_map]
  congr 1
  refine List.map_congr_left fun f hf => ?_
  exact Func.eliminate_eliminate (hp.functions f hf).definedOnce (fun _ => dooms_mono h)
    (p.dooms_substitute t)

/-- **Elimination is monotone in the trusted functions, and can be staged.** Where
it goes through under one list, it goes through under any that trusts more. The
reports are then the same, in the same order, without those for functions that the
longer list trusts. And the shorter list goes through on what the longer has left
and leaves what it would have left by itself. -/
theorem deleteUndefined_staged {c c' : Config} {b : Bool} (hp : p.verify = .ok ())
    (htrust : c.trustList.Within c'.trustList) (h : (p.deleteUndefined c).result = .ok b) :
    (∃ b', (p.deleteUndefined c').result = .ok b') ∧
      (p.deleteUndefined c').diagnostics =
        (p.deleteUndefined c).diagnostics.filter (fun d => !c'.trustList.trusts d.symbol) ∧
      (∃ b', ((p.deleteUndefined c').program.deleteUndefined c).result = .ok b') ∧
      ((p.deleteUndefined c').program.deleteUndefined c).program =
        (p.deleteUndefined c).program := by
  have hwf : p.WellFormed := verify_eq_ok_iff.mp hp
  have heliminable : p.Eliminable c.trustList := (deleteUndefined_eq_ok.mp h).1
  obtain ⟨b', h'⟩ : ∃ b', (p.deleteUndefined c').result = .ok b' :=
    ⟨_, deleteUndefined_eq_ok.mpr ⟨heliminable.mono htrust, rfl⟩⟩
  obtain ⟨b'', hstaged⟩ :
      ∃ b'', ((p.deleteUndefined c').program.deleteUndefined c).result = .ok b'' := by
    rw [deleteUndefined_program h']
    exact ⟨_, deleteUndefined_eq_ok.mpr ⟨heliminable.eliminate c'.trustList, rfl⟩⟩
  refine ⟨⟨b', h'⟩, ?_, ⟨b'', hstaged⟩, ?_⟩
  · rw [deleteUndefined_diagnostics h', deleteUndefined_diagnostics h, List.filter_flatMap]
    congr 1
    funext f
    rw [List.filter_map, List.filter_filter]
    congr 2
    funext call
    rw [dooms_of_within htrust, Bool.and_comm]
    rfl
  · rw [deleteUndefined_program hstaged, deleteUndefined_program h', deleteUndefined_program h,
      hwf.eliminate_eliminate htrust]

theorem deleteUndefined_staged_spawning :
    let c : Config := {}
    let c' : Config := { trusted := ["fork"] ++ c.trusted }
    let removed (callee caller : String) : Diagnostic :=
      { kind := .removedCall, symbol := callee, caller := some caller }
    spawning.verify = .ok () ∧ c.trustList.Within c'.trustList ∧
      (spawning.deleteUndefined c).result = .ok true ∧
      (spawning.deleteUndefined c').diagnostics = [removed "log" "main", removed "log" "main"] ∧
      (∃ b, ((spawning.deleteUndefined c').program.deleteUndefined c).result = .ok b) ∧
      ((spawning.deleteUndefined c').program.deleteUndefined c).program =
        (spawning.deleteUndefined c).program := by
  intro c c' removed
  have hp : spawning.verify = .ok () := rfl
  have htrust : c.trustList.Within c'.trustList := by
    intro name h
    rw [TrustList.trusts, Bool.or_eq_true] at h ⊢
    refine h.imp id fun h => ?_
    exact List.contains_iff_mem.mpr (List.mem_append_right _ (List.contains_iff_mem.mp h))
  have hok : (spawning.deleteUndefined c).result = .ok true :=
    eq_ok_of_toOption (by decide +kernel)
  obtain ⟨-, hreports, hstaged, hprogram⟩ := deleteUndefined_staged hp htrust hok
  refine ⟨hp, htrust, hok, ?_, hstaged, hprogram⟩
  rw [hreports]
  decide +kernel

/-- Where a register is defined twice, the step between can show. -/
example :
    let c : Config := {}
    let c' : Config := { trusted := ["fetch"] ++ c.trusted }
    let p : Program := {
      functions := [
        { name := "fetch", ret := .int 32 },
        { name := "peek", ret := .int 64 },
        { name := "main", ret := .void, body := some [
          { label := "entry", instrs := [
            .call ⟨some ⟨0⟩, .int 32, .func "fetch", []⟩,
            .call ⟨some ⟨0⟩, .int 64, .func "peek", []⟩,
            .ret (some (.reg ⟨0⟩))] }] }] }
    ((p.deleteUndefined c').program.deleteUndefined c).program ≠
      (p.deleteUndefined c).program := by
  decide +kernel

end Program

end ClosedWorld

import ClosedWorld.Proofs.Closure
import Mathlib.Data.List.Pairwise

/-!
# What runs spare

Elimination takes calls out of bodies and puts zeros where their results were
read. This file is about the calls that are out of its reach. A function is
*spared* the loss of calls to certain names if what is left of it still has
every call that leads to one of them, and no register which such a call binds
has become a constant (`Func.Spares`). The relation composes, so what each stage
spares a sequence of runs spares (`Config.RunsTo.spares`).

A call stays as long as elimination does not doom it. That a use of its result
stays takes more. A register is replaced because a doomed call binds it, and
only because no register is defined twice can that not be the register of a call
that stays. So the statements are about well-formed programs.

Whether a call is doomed depends on what the stages ahead of elimination have
done to its callee, and so on the order of the stages. `Config.Guards` is the
condition that no elimination among the stages to come dooms a call to one of
the names, and it is kept by each stage for the rest.
-/

namespace ClosedWorld

/-- The call leads to one of the functions. -/
def Call.LeadsTo (names : String → Prop) (call : Call) : Prop :=
  ∃ name, call.callee.callee? = some name ∧ names name

theorem Call.leadsTo_substitute {names : String → Prop} {call : Call}
    {σ : Reg → Option Constant} :
    (call.mapOperands (·.substitute σ)).LeadsTo names ↔ call.LeadsTo names := by
  simp only [LeadsTo, mapOperands, Operand.callee?_substitute]

/-! ## One function -/

/-- `f'` is `f` but for some calls, and for some registers that have become
constants. No call to one of the named functions is gone, and the result of no
such call has become a constant. -/
def Func.Spares (names : String → Prop) (f f' : Func) : Prop :=
  ∃ (gone : Call → Bool) (σ : Reg → Option Constant),
    f' = (f.dropCalls gone).mapInstrs (·.mapOperands (·.substitute σ)) ∧
      ∀ call ∈ f.calls, call.LeadsTo names →
        gone call = false ∧ ∀ r, call.result = some r → σ r = none

namespace Func

variable {names : String → Prop} {f f' f'' : Func}

theorem calls_dropCalls_mapInstrs (f : Func) (gone : Call → Bool) (g : Operand → Operand) :
    ((f.dropCalls gone).mapInstrs (·.mapOperands g)).calls =
      (f.calls.filter fun c => !gone c).map (Call.mapOperands g) := by
  rw [calls, instrs_mapInstrs, instrs_dropCalls, List.filterMap_map, calls, List.filter_filterMap,
    List.map_filterMap, ClosedWorld.dropCalls, List.filterMap_filter]
  congr 1
  funext i
  rw [Function.comp_apply, Instr.call?_mapOperands]
  cases hi : i.call? with
  | none => rfl
  | some c => cases hg : gone c <;> simp [Option.filter, hg]

theorem Spares.refl (names : String → Prop) (f : Func) : f.Spares names f := by
  refine ⟨fun _ => false, fun _ => none, ?_, fun _ _ _ => ⟨rfl, fun _ _ => rfl⟩⟩
  simp only [dropCalls_none, Operand.substitute_none, Instr.mapOperands_id, mapInstrs_id]

theorem Spares.trans (h : f.Spares names f') (h' : f'.Spares names f'') : f.Spares names f'' := by
  obtain ⟨gone, σ, rfl, hspared⟩ := h
  obtain ⟨gone', σ', rfl, hspared'⟩ := h'
  refine ⟨fun c => gone c || gone' (c.mapOperands (·.substitute σ)), fun r => (σ r).or (σ' r),
    ?_, fun call hcall hleads => ?_⟩
  · rw [dropCalls_mapInstrs, dropCalls_dropCalls, mapInstrs_mapInstrs]
    simp only [Instr.mapOperands_mapOperands, Operand.substitute_substitute]
  · obtain ⟨hgone, hσ⟩ := hspared call hcall hleads
    -- The call is still there when the second step comes, with its result.
    have hmem : call.mapOperands (·.substitute σ) ∈
        ((f.dropCalls gone).mapInstrs (·.mapOperands (·.substitute σ))).calls := by
      rw [calls_dropCalls_mapInstrs]
      exact List.mem_map_of_mem (List.mem_filter.mpr ⟨hcall, by rw [hgone]; rfl⟩)
    obtain ⟨hgone', hσ'⟩ := hspared' _ hmem (Call.leadsTo_substitute.mpr hleads)
    refine ⟨Bool.or_eq_false_iff.mpr ⟨hgone, hgone'⟩, fun r hr => ?_⟩
    exact Option.or_eq_none_iff.mpr ⟨hσ r hr, hσ' r hr⟩

theorem Spares.isSome_body (h : f.Spares names f') : f'.body.isSome = f.body.isSome := by
  obtain ⟨gone, σ, rfl, -⟩ := h
  simp only [mapInstrs, dropCalls, Option.isSome_map]

/-- A call that is spared is still there, with its result and under its callee. -/
theorem Spares.exists_call (h : f.Spares names f') {call : Call} (hcall : call ∈ f.calls)
    (hleads : call.LeadsTo names) :
    ∃ call' ∈ f'.calls, call'.result = call.result ∧
      call'.callee.callee? = call.callee.callee? := by
  obtain ⟨gone, σ, rfl, hspared⟩ := h
  refine ⟨call.mapOperands (·.substitute σ), ?_, rfl, Operand.callee?_substitute _ _⟩
  rw [calls_dropCalls_mapInstrs]
  exact List.mem_map_of_mem
    (List.mem_filter.mpr ⟨hcall, by rw [(hspared call hcall hleads).1]; rfl⟩)

/-- Two calls of a function without redefinitions do not bind the same register. -/
theorem eq_of_result (honce : f.definedRegs.Nodup) {c c' : Call} (hc : c ∈ f.calls)
    (hc' : c' ∈ f.calls) {r : Reg} (hr : c.result = some r) (hr' : c'.result = some r) :
    c = c' := by
  obtain ⟨i, hi, hic⟩ := List.mem_filterMap.mp hc
  obtain ⟨i', hi', hic'⟩ := List.mem_filterMap.mp hc'
  have hresult : ∀ {i : Instr} {c : Call}, i.call? = some c → i.result? = c.result := by
    intro i c h
    cases i with
    | call => cases h; rfl
    | op | store | ret => cases h
  have hsame : i = i' := by
    refine Classical.byContradiction fun hne => ?_
    have hpairs := List.pairwise_filterMap.mp honce
    have hsymm : Std.Symm fun i i' : Instr =>
        ∀ r, i.result? = some r → ∀ r', i'.result? = some r' → r ≠ r' :=
      ⟨fun _ _ h r hr r' hr' => (h r' hr' r hr).symm⟩
    exact hpairs.forall hi hi' hne r ((hresult hic).trans hr) r ((hresult hic').trans hr') rfl
  subst hsame
  rw [hic] at hic'
  exact Option.some.inj hic'

/-- Where no register is defined twice, any doomed call that binds a register
tells what stands for it. -/
theorem zeroFor?_eq_some_iff (honce : f.definedRegs.Nodup) {r : Reg} {zero : Constant} :
    f.zeroFor? doomed r = some zero ↔
      ∃ c ∈ f.calls, doomed c = true ∧ c.ret.isVoid = false ∧ c.result = some r ∧
        Constant.zeroOf? c.ret = some zero := by
  rw [zeroFor?, Option.bind_eq_some_iff]
  constructor
  · rintro ⟨c, hfirst, hzero⟩
    have hc := List.find?_some hfirst
    simp only [Bool.and_eq_true, Bool.not_eq_true', beq_iff_eq, and_assoc] at hc
    exact ⟨c, List.mem_of_find?_eq_some hfirst, hc.1, hc.2.1, hc.2.2, hzero⟩
  · rintro ⟨c, hmem, hd, hvoid, hresult, hzero⟩
    refine ⟨c, ?_, hzero⟩
    cases hfirst : f.calls.find? fun c => doomed c && !c.ret.isVoid && c.result == some r with
    | none =>
        refine absurd (List.find?_eq_none.mp hfirst c hmem) ?_
        simp [hd, hvoid, hresult]
    | some first =>
        have hsat := List.find?_some hfirst
        simp only [Bool.and_eq_true, beq_iff_eq] at hsat
        exact congrArg some
          (eq_of_result honce (List.mem_of_find?_eq_some hfirst) hmem hsat.2 hresult)

/-- Elimination spares a function the calls that are not doomed. -/
theorem spares_eliminate {doomed : Call → Bool} (honce : f.definedRegs.Nodup)
    (hsafe : ∀ call ∈ f.calls, call.LeadsTo names → doomed call = false) :
    f.Spares names (f.eliminate doomed) := by
  refine ⟨doomed, f.zeroFor? doomed, rfl, fun call hcall hleads => ?_⟩
  refine ⟨hsafe call hcall hleads, fun r hr => ?_⟩
  refine Option.eq_none_iff_forall_ne_some.mpr fun zero hzero => ?_
  obtain ⟨c, hc, hdoomed, -, hresult, -⟩ := (zeroFor?_eq_some_iff honce).mp hzero
  rw [eq_of_result honce hc hcall hresult hr, hsafe call hcall hleads] at hdoomed
  cases hdoomed

end Func

/-! ## One program -/

/-- Every function of `p` is there in `q`, and is spared unless it is one of the
stripped ones and has no body left. -/
def Program.Spares (names : String → Prop) (stripped : List String) (p q : Program) : Prop :=
  ∀ name f, p.function? name = some f →
    ∃ f', q.function? name = some f' ∧
      (f.Spares names f' ∨ name ∈ stripped ∧ f'.body.isSome = false)

namespace Program

variable {names : String → Prop} {stripped : List String} {p q q' : Program}

theorem Spares.refl (names : String → Prop) (stripped : List String) (p : Program) :
    p.Spares names stripped p :=
  fun _ f hf => ⟨f, hf, Or.inl (.refl names f)⟩

theorem Spares.trans (h : p.Spares names stripped q) (h' : q.Spares names stripped q') :
    p.Spares names stripped q' := by
  intro name f hf
  obtain ⟨f', hf', hfirst⟩ := h name f hf
  obtain ⟨f'', hf'', hsecond⟩ := h' name f' hf'
  refine ⟨f'', hf'', ?_⟩
  rcases hsecond with hsecond | hlost
  · rcases hfirst with hfirst | ⟨hname, hbody⟩
    · exact Or.inl (hfirst.trans hsecond)
    · exact Or.inr ⟨hname, hsecond.isSome_body.trans hbody⟩
  · exact Or.inr hlost

theorem WellFormed.spares_eliminate (hp : p.WellFormed) {t : TrustList}
    (hsafe : ∀ call : Call, call.LeadsTo names → call.Settled t p) :
    p.Spares names stripped (p.eliminate t) := by
  intro name f hf
  refine ⟨f.eliminate (p.dooms t), ?_, Or.inl ?_⟩
  · rw [function?_eliminate, hf]
    rfl
  · exact Func.spares_eliminate (hp.functions f (function?_mem hf)).definedOnce
      fun call _ hleads => not_doomed_of_settled (hsafe call hleads)

theorem spares_prepared (c : Config) (plan : EntryPlan) :
    p.Spares names c.stripped (p.prepared c plan) := by
  intro name f hf
  refine ⟨f.strippedIn c.stripped, ?_, ?_⟩
  · rw [function?_prepared, hf]
    rfl
  · rw [Func.strippedIn, function?_name hf]
    split
    · next hname => exact Or.inr ⟨hname, rfl⟩
    · exact Or.inl (.refl names f)

end Program

/-! ## Stages -/

namespace Config

variable {c : Config} {names : String → Prop} {p q : Program} {s : Stage} {ss : List Stage}

/-- No elimination among the stages dooms a call to one of the functions. They
are intrinsics, or trusted, or they have a body that no preparation takes away
ahead of the elimination. -/
def Guards (c : Config) (names : String → Prop) (ss : List Stage) (p : Program) : Prop :=
  .deleteUndefined ∈ ss → ∀ name, names name →
    isIntrinsicName name = true ∨ c.trustList.trusts name = true ∨
      (∃ f, p.function? name = some f ∧ f.isDeclaration = false) ∧
        ¬ ([.prepare, .deleteUndefined].Sublist ss ∧ name ∈ c.stripped)

theorem Guards.settled (h : c.Guards names (.deleteUndefined :: ss) p) {call : Call}
    (hleads : call.LeadsTo names) : call.Settled c.trustList p := by
  intro name hname
  obtain ⟨name', hname', hmem⟩ := hleads
  rw [hname] at hname'
  cases hname'
  rcases h List.mem_cons_self name hmem with h | h | ⟨h, -⟩
  · exact Or.inl h
  · exact Or.inr (Or.inl h)
  · exact Or.inr (Or.inr h)

/-- What guards a stage and the rest guards the rest. -/
theorem Guards.runStage (h : c.Guards names (s :: ss) p) {b : Bool}
    (hb : (c.runStage p s).result = .ok b) : c.Guards names ss (c.runStage p s).program := by
  intro hmem name hname
  rcases h (List.mem_cons_of_mem s hmem) name hname with h | h | ⟨⟨f, hf, hbody⟩, horder⟩
  · exact Or.inl h
  · exact Or.inr (Or.inl h)
  · refine Or.inr (Or.inr ⟨?_, fun ⟨hsub, hstripped⟩ => horder ⟨hsub.cons s, hstripped⟩⟩)
    obtain ⟨-, -, hprogram⟩ | ⟨-, -, hprogram⟩ | ⟨rfl, plan, -, hprogram⟩ := runStage_eq_ok hb
    · exact ⟨f, by rw [hprogram, hf], hbody⟩
    · refine ⟨f.eliminate (p.dooms c.trustList), ?_, ?_⟩
      · rw [hprogram, Program.function?_eliminate, hf]
        rfl
      · rw [Func.isDeclaration_eliminate]
        exact hbody
    · -- An elimination is still to come, so the function is not one of the stripped.
      have hkept : name ∉ c.stripped := fun hstripped =>
        horder ⟨(List.singleton_sublist.mpr hmem).cons_cons _, hstripped⟩
      refine ⟨f, ?_, hbody⟩
      rw [hprogram, Program.function?_prepared_of_kept hkept, hf]

theorem Ready.runStage_spares (h : c.Ready (s :: ss) p) (hguards : c.Guards names (s :: ss) p)
    {b : Bool} (hb : (c.runStage p s).result = .ok b) :
    p.Spares names c.stripped (c.runStage p s).program := by
  obtain ⟨-, -, hprogram⟩ | ⟨rfl, -, hprogram⟩ | ⟨-, plan, -, hprogram⟩ := runStage_eq_ok hb
  · rw [hprogram]
    exact .refl names c.stripped p
  · rw [hprogram]
    exact h.wellFormed.spares_eliminate fun _ hleads => hguards.settled hleads
  · rw [hprogram]
    exact Program.spares_prepared c plan

theorem Ready.runStages_spares (h : c.Ready ss p) (hguards : c.Guards names ss p) {b : Bool}
    (hb : (c.runStages p ss).result = .ok b) :
    p.Spares names c.stripped (c.runStages p ss).program := by
  have hend := runStages_induction
    (I := fun ss q => c.Ready ss q ∧ c.Guards names ss q ∧ p.Spares names c.stripped q) ?_
    ⟨h, hguards, .refl names c.stripped p⟩ hb
  · exact hend.2.2
  · intro s ss q b ⟨hready, hguards, hspares⟩ hs
    exact ⟨hready.runStage_of_ok hs, hguards.runStage hs,
      hspares.trans (hready.runStage_spares hguards hs)⟩

/-! ## Runs -/

/-- `n` runs, all of them successful, lead from one program to another. -/
inductive RunsTo (c : Config) (p : Program) : Nat → Program → Prop where
  | start : RunsTo c p 0 p
  | run {n : Nat} {q : Program} {report : Report} :
      RunsTo c p n q → (c.run q).result = .ok report → RunsTo c p (n + 1) (c.run q).program

theorem RunsTo.next {n : Nat} (h : c.RunsTo p n q) (hok : (c.run q).result.isOk = true) :
    c.RunsTo p (n + 1) (c.run q).program := by
  obtain ⟨report, hresult⟩ := exists_of_isOk hok
  exact h.run hresult

theorem run_spares (hp : p.WellFormed) (hguards : c.Guards names c.stages p) {report : Report}
    (h : (c.run p).result = .ok report) : p.Spares names c.stripped (c.run p).program := by
  obtain ⟨hpre, b, hs, hprogram⟩ := run_eq_ok h
  rw [hprogram]
  exact (ready_of_preconditions hp hpre).runStages_spares hguards hs

theorem RunsTo.wellFormed {n : Nat} (h : c.RunsTo p n q) (hp : p.WellFormed) : q.WellFormed := by
  induction h with
  | start => exact hp
  | run _ _ ih => exact run_program_wellFormed ih

/-- Where the input is checked, no run leads away from a malformed program. -/
theorem RunsTo.wellFormed_start {n : Nat} (h : c.RunsTo p n q) (hin : c.verifyInput = true) :
    q = p ∨ p.WellFormed := by
  induction h with
  | start => exact Or.inl rfl
  | run _ hrun ih =>
      rcases ih with rfl | hp
      · exact Or.inr (wellFormed_of_preconditions hin (run_eq_ok hrun).1)
      · exact Or.inr hp

/-- A sequence of runs spares what each of them spares. -/
theorem RunsTo.spares {n : Nat} (h : c.RunsTo p n q) (hp : p.WellFormed)
    (hguards : ∀ m q, m < n → c.RunsTo p m q → c.Guards names c.stages q) :
    p.Spares names c.stripped q := by
  induction h with
  | start => exact .refl names c.stripped p
  | run hq hrun ih =>
      refine (ih fun m q hm => hguards m q (Nat.lt_succ_of_lt hm)).trans ?_
      exact run_spares (hq.wellFormed hp) (hguards _ _ (Nat.lt_succ_self _) hq) hrun

end Config

end ClosedWorld

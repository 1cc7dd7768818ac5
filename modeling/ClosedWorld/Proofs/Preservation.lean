import ClosedWorld.Proofs.Elimination
import ClosedWorld.Proofs.Preparation
import ClosedWorld.Proofs.WellFormed

/-!
# The stages keep a program well formed

Elimination and preparation each change a program in several ways at once, and
each way puts some condition of well-formedness at risk. This file takes the
simple forms of both stages and goes through the conditions.

Names and symbols are the easy part. No stage takes a name away, zeros mention
no symbol, and the one symbol that the entry table mentions is a function that
the check has found.

The register condition is the one with an argument in it. Erasing a call erases
a definition, and a use of its register would be left without one. But a doomed
call that binds a register is not void, so its zero has been put for every use:
what is still read after elimination is a register that no doomed call bound,
and the instruction that defines such a register is still there.
-/

namespace ClosedWorld

theorem Constant.symbols_zeroOf? {ty : Ty} {zero : Constant} (h : zeroOf? ty = some zero) :
    zero.symbols = [] := by
  cases ty <;> cases h <;> rfl

theorem Global.WellFormed.mono {p q : Program} {g : Global} (h : g.WellFormed p)
    (hpq : ∀ s, p.defines s = true → q.defines s = true) : g.WellFormed q :=
  ⟨h.named, fun c hc s hs => hpq s (h.symbols c hc s hs)⟩

theorem Func.WellFormed.mono {p q : Program} {f : Func} (h : f.WellFormed p)
    (hpq : ∀ s, p.defines s = true → q.defines s = true) : f.WellFormed q :=
  ⟨h.named, fun i hi v hv s hs => hpq s (h.symbols i hi v hv s hs), h.defined, h.definedOnce,
    h.unbound⟩

/-! ## Elimination -/

theorem Func.symbols_zeroFor? {doomed : Call → Bool} {f : Func} {r : Reg} {zero : Constant}
    (h : f.zeroFor? doomed r = some zero) : zero.symbols = [] := by
  obtain ⟨c, -, hc⟩ := Option.bind_eq_some_iff.mp h
  exact Constant.symbols_zeroOf? hc

theorem Func.definedRegs_eliminate (doomed : Call → Bool) (f : Func) :
    (f.eliminate doomed).definedRegs =
      (ClosedWorld.dropCalls doomed f.instrs).filterMap Instr.result? := by
  rw [definedRegs, instrs_eliminate, List.filterMap_map]
  simp only [Function.comp_def, Instr.result?_mapOperands]

/-- A register for which there is no zero is still defined, if it was. -/
theorem Func.mem_definedRegs_eliminate {p : Program} {doomed : Call → Bool} {f : Func}
    (hf : f.WellFormed p) (hz : ∀ c ∈ f.calls, doomed c = true → c.Replaceable) {r : Reg}
    (hr : r ∈ f.definedRegs) (hzero : f.zeroFor? doomed r = none) :
    r ∈ (f.eliminate doomed).definedRegs := by
  obtain ⟨i, hi, hresult⟩ := List.mem_filterMap.mp hr
  rw [definedRegs_eliminate]
  refine List.mem_filterMap.mpr ⟨i, List.mem_filter.mpr ⟨hi, ?_⟩, hresult⟩
  cases hcall : i.call? with
  | none => rfl
  | some c =>
      cases hd : doomed c with
      | false => simp [hd]
      | true =>
          have hc : c ∈ f.calls := List.mem_filterMap.mpr ⟨i, hi, hcall⟩
          have hbind : c.result = some r := by
            cases i with
            | call c' => cases hcall; exact hresult
            | op | store | ret => cases hcall
          have hv : c.ret.isVoid = false := by
            cases hv : c.ret.isVoid with
            | false => rfl
            | true =>
                have hnone := hf.unbound c hc hv
                rw [hbind] at hnone
                cases hnone
          obtain ⟨zero, hsome⟩ := f.zeroFor?_isSome hz hc hd hv hbind
          rw [hzero] at hsome
          cases hsome

theorem Func.WellFormed.eliminate {p q : Program} {doomed : Call → Bool} {f : Func}
    (hf : f.WellFormed p) (hz : ∀ c ∈ f.calls, doomed c = true → c.Replaceable)
    (hpq : ∀ s, p.defines s = true → q.defines s = true) : (f.eliminate doomed).WellFormed q where
  named := hf.named
  symbols := by
    intro i hi v hv s hs
    obtain ⟨j, hj, -, rfl⟩ := mem_instrs_eliminate.mp hi
    rw [Instr.operands_mapOperands] at hv
    obtain ⟨w, hw, rfl⟩ := List.mem_map.mp hv
    rw [Operand.symbols_substitute fun _ _ hzero => symbols_zeroFor? hzero] at hs
    exact hpq s (hf.symbols j hj w hw s hs)
  defined := by
    intro i hi v hv r hr
    obtain ⟨j, hj, -, rfl⟩ := mem_instrs_eliminate.mp hi
    rw [Instr.operands_mapOperands] at hv
    obtain ⟨w, hw, rfl⟩ := List.mem_map.mp hv
    obtain ⟨hread, hzero⟩ := Operand.reg?_substitute hr
    exact mem_definedRegs_eliminate hf hz (hf.defined j hj w hw r hread) hzero
  definedOnce := by
    rw [definedRegs_eliminate]
    exact hf.definedOnce.sublist (List.filter_sublist.filterMap Instr.result?)
  unbound := by
    intro c hc hv
    obtain ⟨c', hc', -, rfl⟩ := mem_calls_eliminate.mp hc
    exact hf.unbound c' hc' hv

namespace Program

theorem defines_eliminate {p : Program} {t : TrustList} {s : Symbol} (h : p.defines s = true) :
    (p.eliminate t).defines s = true := by
  refine defines_of_names (p := p) (fun name hname => ?_) (fun name hname => ?_) h
  · rw [functionNames_eliminate]
    exact hname
  · exact hname

theorem WellFormed.eliminate {p : Program} {t : TrustList} (hp : p.WellFormed)
    (hz : ∀ f ∈ p.functions, ∀ c ∈ f.calls, p.dooms t c = true → c.Replaceable) :
    (p.eliminate t).WellFormed where
  globals := fun g hg => (hp.globals g hg).mono fun _ => defines_eliminate
  functions := by
    intro f hf
    obtain ⟨f', hf', rfl⟩ := List.mem_map.mp hf
    exact (hp.functions f' hf').eliminate (hz f' hf') fun _ => defines_eliminate

/-! ## Preparation -/

theorem defines_prepared {p : Program} {c : Config} {plan : EntryPlan} {s : Symbol}
    (h : p.defines s = true) : (p.prepared c plan).defines s = true := by
  refine defines_of_names (fun name hname => ?_) (fun name hname => ?_) h
  · rw [functionNames_prepared]
    exact hname
  · rw [globalNames_prepared]
    exact List.mem_append_left _ hname

end Program

theorem Func.WellFormed.strippedIn {p : Program} {f : Func} (h : f.WellFormed p)
    (names : List String) : (f.strippedIn names).WellFormed p := by
  rw [Func.strippedIn]
  split
  · exact ⟨h.named, fun _ hi => absurd hi List.not_mem_nil, fun _ hi => absurd hi List.not_mem_nil,
      List.nodup_nil, fun _ hc => absurd hc List.not_mem_nil⟩
  · exact h

theorem Global.WellFormed.zeroed {p : Program} {g : Global} (h : g.WellFormed p) :
    g.zeroed.WellFormed p := by
  refine ⟨by rw [zeroed_name]; exact h.named, fun c hc s hs => ?_⟩
  rw [Global.zeroed] at hc
  split at hc
  · rw [Constant.symbols_zeroOf? hc] at hs
    cases hs
  · exact h.symbols c hc s hs

/-- The table lists one function, and nothing else is asked of it than that this
function exists and that the table has a name. -/
theorem Config.wellFormed_entryTableGlobal {c : Config} {p : Program} (hname : c.entryTable ≠ "")
    (hentry : (p.function? c.entryFunction).isSome = true) : c.entryTableGlobal.WellFormed p := by
  refine ⟨hname, fun k hk s hs => ?_⟩
  cases hk
  have hs : s = .func c.entryFunction := by
    simpa [Constant.symbols, Constant.symbolsAll] using hs
  rw [hs]
  exact hentry

theorem Program.WellFormed.prepared {p : Program} {c : Config} {plan : EntryPlan}
    (hp : p.WellFormed) (hplan : p.entryPlan c = .ok plan) (hname : c.entryTable ≠ "") :
    (p.prepared c plan).WellFormed where
  globals := by
    intro g hg
    rw [Program.prepared] at hg
    rcases List.mem_append.mp hg with hg | hg
    · obtain ⟨g', hg', rfl⟩ := List.mem_map.mp hg
      exact (hp.globals g' hg').zeroed.mono fun _ => defines_prepared
    · cases plan with
      | keep => cases hg
      | create =>
          rw [EntryPlan.tables, List.mem_singleton] at hg
          rw [hg]
          have hentry := (entryPlan_eq_ok hplan).1
          exact (Config.wellFormed_entryTableGlobal hname hentry).mono fun _ => defines_prepared
  functions := by
    intro f hf
    obtain ⟨f', hf', rfl⟩ := List.mem_map.mp hf
    exact ((hp.functions f' hf').strippedIn c.stripped).mono fun _ => defines_prepared

end ClosedWorld

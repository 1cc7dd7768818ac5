import ClosedWorld.Program.Checked

/-!
# What verification accepts

`Program.findings` lists violations; this file says what their absence means.
The conditions are stated as conditions, on functions and globals one by one,
and `Program.findings_eq_nil_iff` shows that a program without findings is one
that meets them. Whatever is proved to preserve well-formedness is proved about
the conditions, and verification comes in again only at the end.
-/

namespace ClosedWorld

/-- What verification asks of a global. -/
structure Global.WellFormed (p : Program) (g : Global) : Prop where
  named : g.name ≠ ""
  symbols : ∀ c, g.initial = some c → ∀ s ∈ c.symbols, p.defines s = true

/-- What verification asks of a function. -/
structure Func.WellFormed (p : Program) (f : Func) : Prop where
  named : f.name ≠ ""
  /-- Every symbol that an operand mentions exists. -/
  symbols : ∀ i ∈ f.instrs, ∀ v ∈ i.operands, ∀ s ∈ v.symbols, p.defines s = true
  /-- Every register that an operand reads is defined. -/
  defined : ∀ i ∈ f.instrs, ∀ v ∈ i.operands, ∀ r, v.reg? = some r → r ∈ f.definedRegs
  definedOnce : f.definedRegs.Nodup
  /-- No void call binds a result. -/
  unbound : ∀ c ∈ f.calls, c.ret.isVoid = true → c.result = none

/-- What verification asks of a program. -/
structure Program.WellFormed (p : Program) : Prop where
  globals : ∀ g ∈ p.globals, g.WellFormed p
  functions : ∀ f ∈ p.functions, f.WellFormed p

theorem nameFindings_eq_nil_iff {name : String} : nameFindings name = [] ↔ name ≠ "" := by
  rw [nameFindings]
  split <;> simp_all

theorem Program.symbolFindings_eq_nil_iff {p : Program} {owner : String} {ss : List Symbol} :
    p.symbolFindings owner ss = [] ↔ ∀ s ∈ ss, p.defines s = true := by
  rw [symbolFindings, List.map_eq_nil_iff, List.filter_eq_nil_iff]
  simp only [Bool.not_eq_true', Bool.not_eq_false]

theorem Program.globalFindings_eq_nil_iff {p : Program} {g : Global} :
    p.globalFindings g = [] ↔ g.WellFormed p := by
  rw [globalFindings, List.append_eq_nil_iff, nameFindings_eq_nil_iff, List.flatMap_eq_nil_iff]
  simp only [symbolFindings_eq_nil_iff, Option.mem_toList]
  exact ⟨fun ⟨hn, hs⟩ => ⟨hn, hs⟩, fun h => ⟨h.named, h.symbols⟩⟩

theorem Func.repeated_eq_nil_iff {seen rs : List Reg} :
    repeated seen rs = [] ↔ rs.Nodup ∧ ∀ r ∈ rs, r ∉ seen := by
  induction rs generalizing seen with
  | nil => simp [repeated]
  | cons r rs ih =>
      rw [repeated]
      by_cases hr : r ∈ seen
      · rw [if_pos hr]
        exact ⟨fun h => absurd h (by simp), fun h => absurd hr (h.2 r List.mem_cons_self)⟩
      · rw [if_neg hr, ih, List.nodup_cons]
        constructor
        · intro ⟨hnd, hseen⟩
          refine ⟨⟨fun hmem => hseen r hmem List.mem_cons_self, hnd⟩, ?_⟩
          intro q hq
          rcases List.mem_cons.mp hq with rfl | hq
          · exact hr
          · exact fun hmem => hseen q hq (List.mem_cons_of_mem r hmem)
        · intro ⟨⟨hnot, hnd⟩, hseen⟩
          refine ⟨hnd, fun q hq hmem => ?_⟩
          rcases List.mem_cons.mp hmem with rfl | hmem
          · exact hnot hq
          · exact hseen q (List.mem_cons_of_mem r hq) hmem

theorem Program.operandFindings_eq_nil_iff {p : Program} {owner : String} {defined : List Reg}
    {v : Operand} :
    p.operandFindings owner defined v = [] ↔
      (∀ s ∈ v.symbols, p.defines s = true) ∧ ∀ r, v.reg? = some r → r ∈ defined := by
  rw [operandFindings, List.append_eq_nil_iff, symbolFindings_eq_nil_iff, List.map_eq_nil_iff,
    List.filter_eq_nil_iff]
  simp only [Option.mem_toList, decide_not, Bool.not_eq_true',
    decide_eq_false_iff_not, Classical.not_not]

theorem Instr.resultFindings_eq_nil_iff {owner : String} {i : Instr} :
    i.resultFindings owner = [] ↔ ∀ c, i.call? = some c → c.ret.isVoid = true → c.result = none := by
  cases i with
  | call c =>
      simp only [resultFindings, call?, Option.some.injEq, forall_eq']
      cases c.result <;> simp
  | op | store | ret => simp [resultFindings, call?]

theorem Program.functionFindings_eq_nil_iff {p : Program} {f : Func} :
    p.functionFindings f = [] ↔ f.WellFormed p := by
  rw [functionFindings, List.append_eq_nil_iff, List.append_eq_nil_iff, nameFindings_eq_nil_iff,
    List.map_eq_nil_iff, Func.repeated_eq_nil_iff, List.flatMap_eq_nil_iff]
  simp only [List.append_eq_nil_iff, List.flatMap_eq_nil_iff, Instr.resultFindings_eq_nil_iff,
    operandFindings_eq_nil_iff]
  constructor
  · intro ⟨⟨hname, hnd, _⟩, hbody⟩
    refine ⟨hname, fun i hi v hv => ((hbody i hi).2 v hv).1,
      fun i hi v hv => ((hbody i hi).2 v hv).2, hnd, fun c hc => ?_⟩
    obtain ⟨i, hi, hcall⟩ := List.mem_filterMap.mp hc
    exact (hbody i hi).1 c hcall
  · intro h
    refine ⟨⟨h.named, h.definedOnce, fun r _ => List.not_mem_nil⟩, fun i hi => ⟨?_, ?_⟩⟩
    · intro c hc
      exact h.unbound c (List.mem_filterMap.mpr ⟨i, hi, hc⟩)
    · intro v hv
      exact ⟨h.symbols i hi v hv, h.defined i hi v hv⟩

namespace Program

theorem findings_eq_nil_iff {p : Program} : p.findings = [] ↔ p.WellFormed := by
  rw [findings, List.append_eq_nil_iff, List.flatMap_eq_nil_iff, List.flatMap_eq_nil_iff]
  simp only [globalFindings_eq_nil_iff, functionFindings_eq_nil_iff]
  exact ⟨fun ⟨hg, hf⟩ => ⟨hg, hf⟩, fun h => ⟨h.globals, h.functions⟩⟩

theorem verify_eq_ok_iff {p : Program} : p.verify = .ok () ↔ p.WellFormed := by
  rw [← findings_eq_nil_iff, verify]
  split <;> simp_all

end Program

end ClosedWorld

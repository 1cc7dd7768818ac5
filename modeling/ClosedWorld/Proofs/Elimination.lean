import ClosedWorld.Proofs.Erasure
import ClosedWorld.Proofs.Fallible
import ClosedWorld.Proofs.Target

/-!
# Elimination is a filter and a substitution

The stage that removes calls plans on the whole program, replaces registers one
after another, and removes instructions by position, back to front. What it
comes to is much simpler, and this file says so: in every function the doomed
calls are filtered out, and in what stays each register that a doomed call bound
has become the zero of the first such call (`Program.eliminate`).

Two things make the simple form true. The plan is made of the doomed calls, each
with its zero, because a call that could not be planned would have ended the
stage. And a zero reads no register, so the order of the replacements matters
only in that the first one for a register wins.
-/

namespace ClosedWorld

/-! ## The simple form -/

/-- The call leads to a function without a body that is neither an intrinsic nor
trusted to exist. -/
def Program.dooms (p : Program) (t : TrustList) (c : Call) : Bool :=
  match c.callee.callee? with
  | none => false
  | some name =>
      !isIntrinsicName name && !t.trusts name && (p.function? name).any Func.isDeclaration

/-- What stands for a register when the doomed calls are gone: the zero of the
first of them that binds it. A void call has no result to stand for. -/
def Func.zeroFor? (doomed : Call → Bool) (f : Func) (r : Reg) : Option Constant :=
  (f.calls.find? fun c => doomed c && !c.ret.isVoid && c.result == some r).bind fun c =>
    Constant.zeroOf? c.ret

/-- A function without its doomed calls. -/
def Func.eliminate (doomed : Call → Bool) (f : Func) : Func :=
  (f.dropCalls doomed).mapInstrs (·.mapOperands (·.substitute (f.zeroFor? doomed)))

/-- A program without its doomed calls. -/
def Program.eliminate (t : TrustList) (p : Program) : Program :=
  { p with functions := p.functions.map (Func.eliminate (p.dooms t)) }

theorem Program.function?_eliminate (p : Program) (t : TrustList) (name : String) :
    (p.eliminate t).function? name = (p.function? name).map (Func.eliminate (p.dooms t)) :=
  function?_map (k := Func.eliminate (p.dooms t)) (fun _ => rfl) rfl name

theorem Program.functionNames_eliminate (p : Program) (t : TrustList) :
    (p.eliminate t).functions.map Func.name = p.functions.map Func.name := by
  rw [eliminate, List.map_map]
  rfl

theorem Func.blocks_eliminate (doomed : Call → Bool) (f : Func) :
    (f.eliminate doomed).blocks = f.blocks.map fun b =>
      (b.dropCalls doomed).mapInstrs (·.mapOperands (·.substitute (f.zeroFor? doomed))) := by
  cases f with
  | mk name ret params variadic linkage body =>
      cases body with
      | none => rfl
      | some blocks => exact List.map_map

theorem Func.instrs_eliminate (doomed : Call → Bool) (f : Func) :
    (f.eliminate doomed).instrs =
      (ClosedWorld.dropCalls doomed f.instrs).map
        (·.mapOperands (·.substitute (f.zeroFor? doomed))) := by
  rw [eliminate, instrs_mapInstrs, instrs_dropCalls]

/-- What is left in a function is what was there, with its operands changed. -/
theorem Func.mem_instrs_eliminate {doomed : Call → Bool} {f : Func} {i : Instr} :
    i ∈ (f.eliminate doomed).instrs ↔
      ∃ j ∈ f.instrs, j.call?.any doomed = false ∧
        j.mapOperands (·.substitute (f.zeroFor? doomed)) = i := by
  rw [instrs_eliminate, List.mem_map]
  simp only [ClosedWorld.dropCalls, List.mem_filter, Bool.not_eq_true', and_assoc]

theorem Func.mem_calls_eliminate {doomed : Call → Bool} {f : Func} {call : Call} :
    call ∈ (f.eliminate doomed).calls ↔
      ∃ c ∈ f.calls, doomed c = false ∧
        c.mapOperands (·.substitute (f.zeroFor? doomed)) = call := by
  constructor
  · intro h
    obtain ⟨i, hi, hcall⟩ := List.mem_filterMap.mp h
    obtain ⟨j, hj, hd, rfl⟩ := mem_instrs_eliminate.mp hi
    rw [Instr.call?_mapOperands] at hcall
    obtain ⟨c, hc, rfl⟩ := Option.map_eq_some_iff.mp hcall
    rw [hc, Option.any_some] at hd
    exact ⟨c, List.mem_filterMap.mpr ⟨j, hj, hc⟩, hd, rfl⟩
  · intro ⟨c, hc, hd, hcall⟩
    obtain ⟨j, hj, hjc⟩ := List.mem_filterMap.mp hc
    refine List.mem_filterMap.mpr ⟨_, mem_instrs_eliminate.mpr ⟨j, hj, ?_, rfl⟩, ?_⟩
    · rw [hjc, Option.any_some, hd]
    · rw [Instr.call?_mapOperands, hjc, Option.map_some, hcall]

/-- A call that is left was there, is not doomed, and leads where it led. -/
theorem Func.exists_call_of_eliminate {doomed : Call → Bool} {f : Func} {call' : Call}
    (h : call' ∈ (f.eliminate doomed).calls) :
    ∃ call ∈ f.calls, doomed call = false ∧ call'.callee.callee? = call.callee.callee? := by
  obtain ⟨call, hcall, hd, rfl⟩ := mem_calls_eliminate.mp h
  exact ⟨call, hcall, hd, Operand.callee?_substitute _ _⟩

/-- A function without a doomed call stays as it is. -/
theorem Func.eliminate_of_spared {doomed : Call → Bool} {f : Func}
    (h : ∀ call ∈ f.calls, doomed call = false) : f.eliminate doomed = f := by
  have hzero : f.zeroFor? doomed = fun _ => none := by
    funext r
    rw [zeroFor?, List.find?_eq_none.mpr fun call hcall => by simp [h call hcall]]
    rfl
  have hdrop : f.dropCalls doomed = f := by
    have hblock : ∀ b ∈ f.blocks, b.dropCalls doomed = b := by
      intro b hb
      rw [Block.dropCalls, ClosedWorld.dropCalls, List.filter_eq_self.mpr]
      intro i hi
      cases hcall : i.call? with
      | none => rfl
      | some call =>
          have hmem : call ∈ f.calls :=
            List.mem_filterMap.mpr ⟨i, List.mem_flatMap.mpr ⟨b, hb, hi⟩, hcall⟩
          rw [Option.any_some, h call hmem, Bool.not_false]
    cases f with
    | mk name ret params variadic linkage body =>
        cases body with
        | none => rfl
        | some blocks =>
            have hall : blocks.map (Block.dropCalls doomed) = blocks :=
              (List.map_congr_left hblock).trans (List.map_id blocks)
            rw [dropCalls, Option.map_some, hall]
  rw [eliminate, hdrop, hzero]
  simp only [Operand.substitute_none, Instr.mapOperands_id, mapInstrs_id]

theorem Func.eliminate_of_isDeclaration {doomed : Call → Bool} {f : Func}
    (h : f.isDeclaration = true) : f.eliminate doomed = f := by
  have hblocks : f.blocks = [] := List.isEmpty_iff.mp h
  refine eliminate_of_spared fun call hcall => ?_
  rw [calls, instrs, hblocks] at hcall
  cases hcall

theorem Func.isDeclaration_eliminate (doomed : Call → Bool) (f : Func) :
    (f.eliminate doomed).isDeclaration = f.isDeclaration := by
  cases f with
  | mk name ret params variadic linkage body =>
      cases body with
      | none => rfl
      | some blocks => cases blocks <;> rfl

/-! ## What looking at one call can come to -/

/-- The zero that replaces the result of a call, if it binds one. -/
def Call.replacement? (c : Call) : Option (Reg × Constant) :=
  if c.ret.isVoid then none
  else c.result.bind fun r => (Constant.zeroOf? c.ret).map fun zero => (r, zero)

/-- The removal of a call. -/
def PlacedCall.removal (s : PlacedCall) : Removal :=
  { block := s.block
    index := s.index
    callee := s.call.callee.callee?.getD ""
    replacement := s.call.replacement? }

/-- A result that the call binds has a zero. -/
def Call.Replaceable (c : Call) : Prop :=
  c.ret.isVoid = false → ∀ r, c.result = some r → ∃ zero, Constant.zeroOf? c.ret = some zero

/-- The type is a signature. -/
def Ty.IsFunction (t : Ty) : Prop := ∃ ret params variadic, t = .func ret params variadic

theorem Call.not_replaceable_iff {c : Call} :
    ¬ c.Replaceable ↔ (∃ r, c.result = some r) ∧ c.ret.IsFunction := by
  cases hret : c.ret <;> cases hresult : c.result <;>
    simp [Replaceable, Ty.IsFunction, Ty.isVoid, Constant.zeroOf?, hret, hresult]

namespace Program

/-- Why the scan stops at a call of the function `caller`: the call leads nowhere,
or it would have to go and binds a result for which nothing can stand, because it
returns a function. -/
inductive CallFault (p : Program) (t : TrustList) (caller : String) (call : Call) : Error → Prop
  | astray {e : Error} : p.Astray caller call e → CallFault p t caller call e
  | noZero {name : String} {f : Func} {r : Reg} : call.callee.callee? = some name → name ≠ "" →
      p.function? name = some f → f.isDeclaration = true → isIntrinsicName name = false →
      t.trusts name = false → call.result = some r → call.ret.IsFunction →
      CallFault p t caller call (.noZeroValue name call.ret)

theorem dooms_iff {p : Program} {t : TrustList} {call : Call} :
    p.dooms t call = true ↔ ∃ name f, call.callee.callee? = some name ∧
      p.function? name = some f ∧ f.isDeclaration = true ∧ isIntrinsicName name = false ∧
      t.trusts name = false := by
  rw [dooms]
  cases hname : call.callee.callee? with
  | none => simp
  | some name =>
      cases hf : p.function? name with
      | none => simp [hf]
      | some f => simp [hf, and_comm]

theorem dooms_of_target {p : Program} {t : TrustList} {c : Call} {name : String} {f : Func}
    (hc : c.callee.callee? = some name) (hf : p.function? name = some f) :
    p.dooms t c = t.isUndefined f := by
  simp only [dooms, hc, hf, Option.any_some, TrustList.isUndefined, Func.isIntrinsic,
    function?_name hf]
  cases isIntrinsicName name <;> cases t.trusts name <;> cases f.isDeclaration <;> rfl

theorem removal?_of_doomed {p : Program} {t : TrustList} {caller name : String} {s : PlacedCall}
    {f : Func} (ht : p.target? caller s.call = .ok (some f)) (hu : t.isUndefined f = true)
    (hc : s.call.callee.callee? = some name) (hf : f.name = name) :
    (s.call.Replaceable ∧ p.removal? t caller s = .ok (some s.removal)) ∨
      (¬ s.call.Replaceable ∧
        p.removal? t caller s = .error (.noZeroValue name s.call.ret)) := by
  have hrem : s.removal = ⟨s.block, s.index, f.name, s.call.replacement?⟩ := by
    rw [PlacedCall.removal, hc, hf, Option.getD_some]
  rw [removal?, ht]
  simp only [bind, Except.bind, hu, Bool.not_true, Bool.false_eq_true, if_false]
  cases hv : s.call.ret.isVoid with
  | true =>
      refine Or.inl ⟨fun h => absurd (hv.symm.trans h) (by simp), ?_⟩
      rw [hrem, Call.replacement?, if_pos hv]
      rfl
  | false =>
      cases hr : s.call.result with
      | none =>
          refine Or.inl ⟨fun _ r h => absurd (hr.symm.trans h) (by simp), ?_⟩
          rw [hrem, Call.replacement?, hv, hr]
          rfl
      | some r =>
          cases hz : Constant.zeroOf? s.call.ret with
          | some zero =>
              refine Or.inl ⟨fun _ _ _ => ⟨zero, hz⟩, ?_⟩
              rw [hrem, Call.replacement?, hv, hr, hz]
              rfl
          | none =>
              refine Or.inr ⟨fun h => ?_, ?_⟩
              · obtain ⟨zero, hzero⟩ := h hv r hr
                rw [hz] at hzero
                cases hzero
              · rw [← hf]
                rfl

/-- A call is passed over, or planned for removal, or it ends the scan. -/
theorem removal?_cases (p : Program) (t : TrustList) (caller : String) (s : PlacedCall) :
    (∃ e, p.CallFault t caller s.call e ∧ p.removal? t caller s = .error e) ∨
      ∃ o, p.target? caller s.call = .ok o ∧
        ((p.dooms t s.call = false ∧ p.removal? t caller s = .ok none) ∨
          (p.dooms t s.call = true ∧ s.call.Replaceable ∧
            p.removal? t caller s = .ok (some s.removal))) := by
  cases ht : p.target? caller s.call with
  | error e =>
      refine Or.inl ⟨e, .astray (target?_eq_error_iff.mp ht), ?_⟩
      rw [removal?, ht]
      rfl
  | ok o =>
      cases hd : p.dooms t s.call with
      | false =>
          refine Or.inr ⟨o, rfl, Or.inl ⟨rfl, ?_⟩⟩
          rw [removal?, ht]
          rcases target?_eq_ok ht with ⟨-, rfl⟩ | ⟨name, f, hname, hf, rfl⟩
          · rfl
          · rw [dooms_of_target hname hf] at hd
            simp only [bind, Except.bind, hd, Bool.not_false, if_true]
            rfl
      | true =>
          obtain ⟨name, f, hname, hf, hdecl, hintrinsic, htrust⟩ := dooms_iff.mp hd
          have hne : name ≠ "" := ((exists_target?_iff caller).mp ⟨o, ht⟩ name hname).1
          have htarget : p.target? caller s.call = .ok (some f) := target?_of_function hname hne hf
          rw [dooms_of_target hname hf] at hd
          rcases removal?_of_doomed htarget hd hname (function?_name hf) with ⟨hz, hr⟩ | ⟨hz, hr⟩
          · exact Or.inr ⟨o, rfl, Or.inr ⟨rfl, hz, hr⟩⟩
          · obtain ⟨⟨r, hresult⟩, hret⟩ := Call.not_replaceable_iff.mp hz
            exact Or.inl ⟨_, .noZero hname hne hf hdecl hintrinsic htrust hresult hret, hr⟩

theorem removal?_eq_error_iff {p : Program} {t : TrustList} {caller : String} {s : PlacedCall}
    {e : Error} : p.removal? t caller s = .error e ↔ p.CallFault t caller s.call e := by
  constructor
  · intro h
    rcases p.removal?_cases t caller s with ⟨e', hfault, hr⟩ | ⟨o, -, ⟨-, hr⟩ | ⟨-, -, hr⟩⟩
    · rw [hr] at h
      cases h
      exact hfault
    · rw [hr] at h; cases h
    · rw [hr] at h; cases h
  · intro h
    cases h with
    | astray hastray =>
        rw [removal?, target?_eq_error_iff.mpr hastray]
        rfl
    | @noZero name f r hname hne hf hdecl hintrinsic htrust hresult hret =>
        have hd : p.dooms t s.call = true :=
          dooms_iff.mpr ⟨name, f, hname, hf, hdecl, hintrinsic, htrust⟩
        rw [dooms_of_target hname hf] at hd
        rcases removal?_of_doomed (target?_of_function hname hne hf) hd hname (function?_name hf)
          with ⟨hz, -⟩ | ⟨-, hr⟩
        · exact absurd hz (Call.not_replaceable_iff.mpr ⟨⟨r, hresult⟩, hret⟩)
        · exact hr

end Program

/-! ## The plan

A plan that could be made consists of the doomed calls, each where it stands
and with its zero. -/

theorem Func.map_call_placedCalls (f : Func) : f.placedCalls.map PlacedCall.call = f.calls := by
  have hblock : ∀ (b : Block) (block : Nat),
      (b.placedCalls block).map PlacedCall.call = b.instrs.filterMap Instr.call? := by
    intro b block
    rw [← List.map_id (b.instrs.filterMap Instr.call?)]
    exact map_filterMap_zipIdx (k := fun index call => { block, index, call : PlacedCall })
      (fun _ _ => rfl) b.instrs
  rw [placedCalls, List.map_flatMap, calls, instrs, List.filterMap_flatMap]
  simp only [hblock]
  exact flatMap_zipIdx_fst (fun b => b.instrs.filterMap Instr.call?) f.blocks

namespace Program

theorem removals_eq_ok {p : Program} {t : TrustList} {f : Func} {rs : List Removal}
    (h : p.removals t f = .ok rs) :
    rs = (f.placedCalls.filter fun s => p.dooms t s.call).map PlacedCall.removal ∧
      (∀ c ∈ f.calls, ∃ o, p.target? f.name c = .ok o) ∧
      (∀ c ∈ f.calls, p.dooms t c = true → c.Replaceable) := by
  obtain ⟨hall, hval⟩ := filterMapM_eq_ok h
  have hcall : ∀ c ∈ f.calls, ∃ s ∈ f.placedCalls, s.call = c := by
    intro c hc
    rw [← f.map_call_placedCalls] at hc
    exact List.mem_map.mp hc
  refine ⟨?_, ?_, ?_⟩
  · rw [← List.filterMap_eq_map, List.filterMap_filter]
    refine hval _ fun s _ o ho => ?_
    rcases p.removal?_cases t f.name s with ⟨e, -, hr⟩ | ⟨-, -, ⟨hd, hr⟩ | ⟨hd, -, hr⟩⟩
    · rw [hr] at ho; cases ho
    · rw [hr] at ho; cases ho
      rw [hd]
      rfl
    · rw [hr] at ho; cases ho
      rw [hd]
      rfl
  · intro c hc
    obtain ⟨s, hs, rfl⟩ := hcall c hc
    obtain ⟨o, ho⟩ := hall s hs
    rcases p.removal?_cases t f.name s with ⟨e, -, hr⟩ | ⟨o', ho', -⟩
    · rw [hr] at ho; cases ho
    · exact ⟨o', ho'⟩
  · intro c hc hd
    obtain ⟨s, hs, rfl⟩ := hcall c hc
    obtain ⟨o, ho⟩ := hall s hs
    rcases p.removal?_cases t f.name s with ⟨e, -, hr⟩ | ⟨-, -, ⟨hd', -⟩ | ⟨-, hz, -⟩⟩
    · rw [hr] at ho; cases ho
    · rw [hd] at hd'; cases hd'
    · exact hz

/-- The error with which the scan stops at a call, wherever the call stands. -/
def callFault? (p : Program) (t : TrustList) (caller : String) (call : Call) : Option Error :=
  error? (p.removal? t caller { block := 0, index := 0, call })

theorem callFault?_eq_some_iff {p : Program} {t : TrustList} {caller : String} {call : Call}
    {e : Error} : p.callFault? t caller call = some e ↔ p.CallFault t caller call e := by
  rw [callFault?, error?_eq_some_iff, removal?_eq_error_iff]

theorem error?_removals (p : Program) (t : TrustList) (f : Func) :
    error? (p.removals t f) = f.calls.findSome? (p.callFault? t f.name) := by
  rw [removals, error?_filterMapM, ← f.map_call_placedCalls, List.findSome?_map]
  congr 1
  funext s
  refine Option.ext fun e => ?_
  rw [Function.comp_apply, callFault?_eq_some_iff, error?_eq_some_iff, removal?_eq_error_iff]

theorem error?_removalPlan (p : Program) (t : TrustList) :
    error? (p.removalPlan t) =
      p.functions.findSome? fun f => f.calls.findSome? (p.callFault? t f.name) := by
  rw [removalPlan, error?_mapM]
  congr 1
  funext f
  rw [← error?_removals]
  exact error?_map (f, ·) (p.removals t f)

/-- A plan that cannot be made fails at a call. -/
theorem removalPlan_eq_error {p : Program} {t : TrustList} {e : Error}
    (h : p.removalPlan t = .error e) :
    ∃ f ∈ p.functions, ∃ call ∈ f.calls, p.CallFault t f.name call e := by
  rw [← error?_eq_some_iff, error?_removalPlan] at h
  obtain ⟨f, hf, h⟩ := List.exists_of_findSome?_eq_some h
  obtain ⟨call, hcall, h⟩ := List.exists_of_findSome?_eq_some h
  exact ⟨f, hf, call, hcall, callFault?_eq_some_iff.mp h⟩

end Program

/-! ## The replacements -/

namespace Func

theorem applyReplacements_fst (f : Func) (rs : List Removal) :
    (f.applyReplacements rs).1 =
      f.mapInstrs (·.mapOperands (·.substitute fun r =>
        (rs.filterMap Removal.replacement).lookup r)) := by
  induction rs generalizing f with
  | nil =>
      simp only [applyReplacements, List.filterMap_nil, List.lookup_nil, Operand.substitute_none,
        Instr.mapOperands_id, mapInstrs_id]
  | cons removal rs ih =>
      rw [applyReplacements]
      cases hr : removal.replacement with
      | none =>
          rw [List.filterMap_cons_none hr]
          exact ih f
      | some z =>
          obtain ⟨r, zero⟩ := z
          rw [List.filterMap_cons_some hr]
          have hlookup : ∀ q, List.lookup q ((r, zero) :: rs.filterMap Removal.replacement) =
              if q = r then some zero else (rs.filterMap Removal.replacement).lookup q := by
            intro q
            rw [List.lookup_cons]
            by_cases hq : q = r
            · rw [if_pos hq, beq_iff_eq.mpr hq]
            · rw [if_neg hq, beq_eq_false_iff_ne.mpr hq]
          show ((f.replaceUses r (.const zero)).1.applyReplacements rs).1 = _
          rw [ih, replaceUses_fst, mapInstrs_mapInstrs]
          simp only [Instr.mapOperands_mapOperands, Operand.substitute_replace, hlookup]

end Func

/-- The first doomed call that binds a register is where the list of replacements
has it first. -/
theorem lookup_replacements {doomed : Call → Bool} {cs : List Call}
    (hz : ∀ c ∈ cs, doomed c = true → c.Replaceable) (r : Reg) :
    ((cs.filter doomed).filterMap Call.replacement?).lookup r =
      (cs.find? fun c => doomed c && !c.ret.isVoid && c.result == some r).bind fun c =>
        Constant.zeroOf? c.ret := by
  induction cs with
  | nil => rfl
  | cons c cs ih =>
      have ih := ih fun c' hc' => hz c' (List.mem_cons_of_mem c hc')
      cases hd : doomed c with
      | false =>
          rw [List.filter_cons_of_neg (by simp [hd]), List.find?_cons_of_neg (by simp [hd])]
          exact ih
      | true =>
          rw [List.filter_cons_of_pos hd]
          cases hv : c.ret.isVoid with
          | true =>
              rw [List.filterMap_cons_none (by rw [Call.replacement?, if_pos hv]),
                List.find?_cons_of_neg (by simp [hv])]
              exact ih
          | false =>
              cases hr : c.result with
              | none =>
                  rw [List.filterMap_cons_none (by rw [Call.replacement?, hv, hr]; rfl),
                    List.find?_cons_of_neg (by simp [hr])]
                  exact ih
              | some q =>
                  obtain ⟨zero, hzero⟩ := hz c List.mem_cons_self hd hv q hr
                  rw [List.filterMap_cons_some (b := (q, zero))
                    (by rw [Call.replacement?, hv, hr, hzero]; rfl), List.lookup_cons]
                  by_cases hq : r = q
                  · subst hq
                    rw [List.find?_cons_of_pos (by simp [hd, hv, hr]), beq_self_eq_true]
                    exact hzero.symm
                  · rw [List.find?_cons_of_neg (by simp [hr, Ne.symm hq]),
                      beq_eq_false_iff_ne.mpr hq]
                    exact ih

/-- Every result that goes has a zero to stand for it. -/
theorem Func.zeroFor?_isSome {doomed : Call → Bool} (f : Func)
    (hz : ∀ c ∈ f.calls, doomed c = true → c.Replaceable) {c : Call} {r : Reg}
    (hc : c ∈ f.calls) (hd : doomed c = true) (hv : c.ret.isVoid = false)
    (hr : c.result = some r) : ∃ zero, f.zeroFor? doomed r = some zero := by
  have hfirst : (f.calls.find? fun c => doomed c && !c.ret.isVoid && c.result == some r).isSome := by
    rw [List.find?_isSome]
    exact ⟨c, hc, by simp [hd, hv, hr]⟩
  obtain ⟨first, hfirst⟩ := Option.isSome_iff_exists.mp hfirst
  have hmem : first ∈ f.calls := List.mem_of_find?_eq_some hfirst
  have hsat := List.find?_some hfirst
  simp only [Bool.and_eq_true, Bool.not_eq_true', beq_iff_eq] at hsat
  obtain ⟨zero, hzero⟩ := hz first hmem hsat.1.1 hsat.1.2 r hsat.2
  exact ⟨zero, by rw [zeroFor?, hfirst, Option.bind_some, hzero]⟩

theorem Func.erase_applyReplacements {p : Program} {t : TrustList} {f : Func} {rs : List Removal}
    (h : p.removals t f = .ok rs) :
    (f.applyReplacements rs).1.erase rs = f.eliminate (p.dooms t) := by
  obtain ⟨hrs, -, hz⟩ := Program.removals_eq_ok h
  have hzeros : ∀ r, (rs.filterMap Removal.replacement).lookup r = f.zeroFor? (p.dooms t) r := by
    intro r
    rw [zeroFor?, ← lookup_replacements hz, ← f.map_call_placedCalls, List.filter_map,
      List.filterMap_map, hrs, List.filterMap_map]
    rfl
  rw [applyReplacements_fst, erase_placed (fun _ => rfl) (fun _ => rfl) f (p.dooms t) _ hrs,
    eliminate]
  simp only [hzeros]

/-! ## The stage -/

namespace Program

theorem removalPlan_eq_ok {p : Program} {t : TrustList} {plan : List (Func × List Removal)}
    (h : p.removalPlan t = .ok plan) :
    (∀ f ∈ p.functions, ∃ rs, p.removals t f = .ok rs) ∧
      plan = p.functions.map fun f =>
        (f, (f.placedCalls.filter fun s => p.dooms t s.call).map PlacedCall.removal) := by
  obtain ⟨hall, hval⟩ := mapM_eq_ok h
  refine ⟨fun f hf => ?_, hval _ fun f _ b hb => ?_⟩
  · obtain ⟨b, hb⟩ := hall f hf
    obtain ⟨rs, hr, -⟩ := bind_eq_ok.mp hb
    exact ⟨rs, hr⟩
  · obtain ⟨rs, hr, hpure⟩ := bind_eq_ok.mp hb
    rw [← pure_eq_ok.mp hpure, (removals_eq_ok hr).1]

/-- The stage either fails while it plans, and then nothing has happened, or
every call could be planned and the doomed ones are gone. -/
theorem deleteUndefined_cases (p : Program) (c : Config) :
    (∃ e, p.removalPlan c.trustList = .error e ∧ p.deleteUndefined c = .check p (.error e)) ∨
      ∃ b, (p.deleteUndefined c).result = .ok b ∧
        (p.deleteUndefined c).program = p.eliminate c.trustList ∧
        ∀ f ∈ p.functions, ∀ call ∈ f.calls,
          (∃ o, p.target? f.name call = .ok o) ∧
          (p.dooms c.trustList call = true → call.Replaceable) := by
  cases hp : p.removalPlan c.trustList with
  | error e =>
      refine Or.inl ⟨e, rfl, ?_⟩
      rw [deleteUndefined, hp]
  | ok plan =>
      obtain ⟨hall, hplan⟩ := removalPlan_eq_ok hp
      refine Or.inr ⟨_, by rw [deleteUndefined, hp], ?_, ?_⟩
      · rw [deleteUndefined, hp, eliminate]
        simp only [hplan, List.map_map]
        congr 1
        refine List.map_congr_left fun f hf => ?_
        obtain ⟨rs, hr⟩ := hall f hf
        rw [← Func.erase_applyReplacements hr, (removals_eq_ok hr).1]
        rfl
      · intro f hf call hcall
        obtain ⟨rs, hr⟩ := hall f hf
        obtain ⟨-, htarget, hz⟩ := removals_eq_ok hr
        exact ⟨htarget call hcall, hz call hcall⟩

/-- What elimination asks of a program: no call leads nowhere, and every result
that goes has a zero. -/
structure Eliminable (p : Program) (t : TrustList) : Prop where
  resolved : p.Resolved
  replaceable : ∀ f ∈ p.functions, ∀ call ∈ f.calls, p.dooms t call = true → call.Replaceable

theorem Eliminable.no_callFault {p : Program} {t : TrustList} (hp : p.Eliminable t) {f : Func}
    (hf : f ∈ p.functions) {call : Call} (hcall : call ∈ f.calls) (e : Error) :
    ¬ p.CallFault t f.name call e := by
  intro hfault
  cases hfault with
  | astray hastray => exact hp.resolved.no_astray hf hcall e hastray
  | @noZero name g r hname _ hg hdecl hintrinsic htrust hresult hret =>
      have hd : p.dooms t call = true :=
        dooms_iff.mpr ⟨name, g, hname, hg, hdecl, hintrinsic, htrust⟩
      exact Call.not_replaceable_iff.mpr ⟨⟨r, hresult⟩, hret⟩ (hp.replaceable f hf call hcall hd)

/-- Elimination goes through exactly on the programs that fulfil its condition,
and it tells whether there was a doomed call. -/
theorem deleteUndefined_eq_ok {p : Program} {c : Config} {b : Bool} :
    (p.deleteUndefined c).result = .ok b ↔
      p.Eliminable c.trustList ∧ b = p.functions.any fun f => f.calls.any (p.dooms c.trustList) := by
  rw [deleteUndefined]
  cases hplan : p.removalPlan c.trustList with
  | error e =>
      refine ⟨nofun, fun ⟨hp, _⟩ => ?_⟩
      obtain ⟨f, hf, call, hcall, hfault⟩ := removalPlan_eq_error hplan
      exact absurd hfault (hp.no_callFault hf hcall e)
  | ok plan =>
      obtain ⟨hall, hvalue⟩ := removalPlan_eq_ok hplan
      have hp : p.Eliminable c.trustList := by
        refine ⟨fun f hf call hcall => ?_, fun f hf => ?_⟩
        · obtain ⟨rs, hrs⟩ := hall f hf
          exact (exists_target?_iff f.name).mp ((removals_eq_ok hrs).2.1 call hcall)
        · obtain ⟨rs, hrs⟩ := hall f hf
          exact (removals_eq_ok hrs).2.2
      have hsome : ∀ f : Func, (!((f.placedCalls.filter fun s =>
          p.dooms c.trustList s.call).map PlacedCall.removal).isEmpty) =
            f.calls.any (p.dooms c.trustList) := by
        intro f
        rw [← f.map_call_placedCalls, List.any_map, List.isEmpty_map, Bool.eq_iff_iff]
        simp
      simp only [Except.ok.injEq, hvalue, List.any_map, Function.comp_def, hsome, hp, true_and]
      exact eq_comm

theorem deleteUndefined_program {p : Program} {c : Config} {b : Bool}
    (h : (p.deleteUndefined c).result = .ok b) :
    (p.deleteUndefined c).program = p.eliminate c.trustList := by
  rcases p.deleteUndefined_cases c with ⟨e, -, hfail⟩ | ⟨-, -, hprogram, -⟩
  · rw [hfail] at h
    cases h
  · exact hprogram

/-- **Elimination is a filter and a substitution.** Where the stage succeeds, the
program is as it was but for the bodies: every block keeps its place and its
label, loses its doomed calls and keeps its other instructions in order, and in
these each register that a doomed call bound is the zero of the first such call.
There is such a zero for every result that goes. -/
theorem deleteUndefined_eq_filter_substitute {p : Program} {c : Config} {b : Bool}
    (h : (p.deleteUndefined c).result = .ok b) :
    (p.deleteUndefined c).program =
        { p with functions := p.functions.map fun f =>
          { f with body := f.body.map fun blocks => blocks.map fun b =>
            { b with
              instrs :=
                (b.instrs.filter fun i => !i.call?.any (p.dooms c.trustList)).map
                  (·.mapOperands (·.substitute (f.zeroFor? (p.dooms c.trustList)))) } } } ∧
      ∀ f ∈ p.functions, ∀ call ∈ f.calls, p.dooms c.trustList call = true →
        call.ret.isVoid = false → ∀ r, call.result = some r →
          ∃ zero, f.zeroFor? (p.dooms c.trustList) r = some zero := by
  rcases p.deleteUndefined_cases c with ⟨e, -, hfail⟩ | ⟨_, -, hprogram, hcalls⟩
  · rw [hfail] at h
    cases h
  · refine ⟨?_, ?_⟩
    · rw [hprogram, eliminate]
      congr 1
      refine List.map_congr_left fun f _ => ?_
      rw [Func.eliminate, Func.mapInstrs, Func.dropCalls, Option.map_map]
      simp only [Function.comp_def, List.map_map]
      rfl
    · intro f hf call hcall hd hv r hr
      exact f.zeroFor?_isSome (fun call' hcall' => (hcalls f hf call' hcall').2) hcall hd hv hr

/-- A program with one undefined function, whose result is used as an operand,
under a cast, and as a callee. -/
def drawing : Program where
  functions := [
    { name := "draw", ret := .int 32 },
    { name := "main", ret := .int 32, body := some [
      { label := "entry", instrs := [
        .call ⟨some ⟨0⟩, .int 32, .cast (.func "draw") .bytePtr, []⟩,
        .call ⟨none, .void, .cast (.reg ⟨0⟩) .bytePtr, [.reg ⟨0⟩]⟩] },
      { label := "exit", instrs := [
        .call ⟨none, .int 32, .func "draw", [.reg ⟨0⟩]⟩,
        .ret (some (.reg ⟨0⟩))] }] }]

theorem deleteUndefined_drawing :
    (drawing.deleteUndefined {}).result = .ok true ∧
      (drawing.deleteUndefined {}).program.functions.map Func.body =
        [none, some [
          { label := "entry", instrs := [
            .call ⟨none, .void, .cast (.const (.int 32 0)) .bytePtr, [.const (.int 32 0)]⟩] },
          { label := "exit", instrs := [.ret (some (.const (.int 32 0)))] }]] := by
  have h : (drawing.deleteUndefined {}).result = .ok true := rfl
  refine ⟨h, ?_⟩
  rw [(deleteUndefined_eq_filter_substitute h).1]
  rfl

end Program

end ClosedWorld

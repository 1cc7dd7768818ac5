import ClosedWorld.CallSite
import ClosedWorld.Proofs.Lookup
import ClosedWorld.Proofs.WellFormed

/-!
# Where calls lead

Where a call leads is settled by the name under the casts of its callee, and
there are just two ways for the question to fail: the name is empty, or the
program has no function of that name. A program without such a call is
*resolved*. Every well-formed program is, since a callee that names a function
mentions it as a symbol; but being resolved asks much less.
-/

namespace ClosedWorld

theorem Operand.func_mem_symbols {v : Operand} {name : String} (h : v.callee? = some name) :
    Symbol.func name ∈ v.symbols := by
  induction v with
  | cast value ty ih => exact ih h
  | func name' =>
      cases h
      exact List.mem_singleton.mpr rfl
  | global | reg | arg | const | asm => cases h

/-- The function that the callee names, if it names one, exists. -/
def Call.Resolves (p : Program) (call : Call) : Prop :=
  ∀ name, call.callee.callee? = some name → name ≠ "" ∧ (p.function? name).isSome = true

theorem Block.mem_callSites_iff {caller : String} {b : Block} {s : CallSite} :
    s ∈ b.callSites caller ↔
      s.caller = caller ∧ s.block = b.label ∧ b.instrs[s.index]? = some (.call s.call) := by
  rw [callSites, List.mem_filterMap]
  constructor
  · intro ⟨⟨i, index⟩, hi, hs⟩
    obtain ⟨call, hcall, rfl⟩ := Option.map_eq_some_iff.mp hs
    rw [List.mem_zipIdx_iff_getElem?] at hi
    cases i with
    | call c => cases hcall; exact ⟨rfl, rfl, hi⟩
    | op | store | ret => cases hcall
  · intro ⟨hcaller, hlabel, hi⟩
    refine ⟨(.call s.call, s.index), List.mem_zipIdx_iff_getElem?.mpr hi, ?_⟩
    rw [← hcaller, ← hlabel]
    rfl

namespace Program

/-- No call leads nowhere. -/
def Resolved (p : Program) : Prop := ∀ f ∈ p.functions, ∀ call ∈ f.calls, call.Resolves p

theorem target?_eq_ok {p : Program} {caller : String} {c : Call} {o : Option Func}
    (h : p.target? caller c = .ok o) :
    (c.callee.callee? = none ∧ o = none) ∨
      ∃ name f, c.callee.callee? = some name ∧ p.function? name = some f ∧ o = some f := by
  rw [target?] at h
  cases hc : c.callee.callee? with
  | none =>
      rw [hc] at h
      cases h
      exact Or.inl ⟨rfl, rfl⟩
  | some name =>
      simp only [hc] at h
      split at h
      · cases h
      · cases hf : p.function? name with
        | none => rw [hf] at h; cases h
        | some f =>
            rw [hf] at h
            cases h
            exact Or.inr ⟨name, f, rfl, hf, rfl⟩

/-- A call of the function `caller` leads nowhere, and this is the error. -/
inductive Astray (p : Program) (caller : String) (call : Call) : Error → Prop
  /-- The name of the callee is empty. -/
  | unnamed : call.callee.callee? = some "" → Astray p caller call (.unnamedCallee caller)
  /-- The program has no function of that name. -/
  | dangling {name : String} : call.callee.callee? = some name → name ≠ "" →
      name ∉ p.functions.map Func.name → Astray p caller call (.danglingSymbol caller name)

theorem target?_eq_error_iff {p : Program} {caller : String} {c : Call} {e : Error} :
    p.target? caller c = .error e ↔ p.Astray caller c e := by
  constructor
  · intro h
    rw [target?] at h
    cases hc : c.callee.callee? with
    | none => rw [hc] at h; cases h
    | some name =>
        simp only [hc] at h
        split at h
        next hname =>
            cases h
            exact .unnamed (hname ▸ hc)
        next hname =>
            cases hf : p.function? name with
            | some f => rw [hf] at h; cases h
            | none =>
                rw [hf] at h
                cases h
                exact .dangling hc hname (function?_eq_none_iff.mp hf)
  · intro h
    cases h with
    | unnamed hc => rw [target?, hc]; rfl
    | dangling hc hname hlacking =>
        simp only [target?, hc, if_neg hname, function?_eq_none_iff.mpr hlacking]

theorem target?_of_function {p : Program} {caller name : String} {c : Call} {f : Func}
    (hname : c.callee.callee? = some name) (hne : name ≠ "") (hf : p.function? name = some f) :
    p.target? caller c = .ok (some f) := by
  simp only [target?, hname, if_neg hne, hf]

theorem exists_target?_iff {p : Program} (caller : String) {call : Call} :
    (∃ o, p.target? caller call = .ok o) ↔ call.Resolves p := by
  constructor
  · intro ⟨o, ho⟩ name hname
    have hastray : ∀ e, ¬ p.Astray caller call e := by
      intro e he
      rw [target?_eq_error_iff.mpr he] at ho
      cases ho
    have hne : name ≠ "" := fun hempty => hastray _ (.unnamed (hempty ▸ hname))
    refine ⟨hne, (isSome_function? p name).mpr ?_⟩
    exact Decidable.not_not.mp fun hlacking => hastray _ (.dangling hname hne hlacking)
  · intro h
    cases ht : p.target? caller call with
    | ok o => exact ⟨o, rfl⟩
    | error e =>
        cases target?_eq_error_iff.mp ht with
        | unnamed hname => exact absurd rfl (h "" hname).1
        | dangling hname _ hlacking => exact absurd ((isSome_function? p _).mp (h _ hname).2) hlacking

theorem Resolved.no_astray {p : Program} (hp : p.Resolved) {f : Func} (hf : f ∈ p.functions)
    {call : Call} (hcall : call ∈ f.calls) (e : Error) : ¬ p.Astray f.name call e := by
  intro hastray
  obtain ⟨o, ho⟩ := (exists_target?_iff f.name).mpr (hp f hf call hcall)
  rw [target?_eq_error_iff.mpr hastray] at ho
  cases ho

theorem WellFormed.resolved {p : Program} (hp : p.WellFormed) : p.Resolved := by
  intro f hf call hcall name hname
  obtain ⟨i, hi, hic⟩ := List.mem_filterMap.mp hcall
  have hoperand : call.callee ∈ i.operands := by
    cases i with
    | call c => cases hic; exact List.mem_cons_self
    | op | store | ret => cases hic
  have hdef : (p.function? name).isSome = true :=
    (hp.functions f hf).symbols i hi call.callee hoperand (.func name)
      (Operand.func_mem_symbols hname)
  obtain ⟨g, hg⟩ := Option.isSome_iff_exists.mp hdef
  have hnamed := (hp.functions g (function?_mem hg)).named
  rw [function?_name hg] at hnamed
  exact ⟨hnamed, hdef⟩

theorem mem_callSites_iff {p : Program} {s : CallSite} :
    s ∈ p.callSites ↔ ∃ f ∈ p.functions, ∃ b ∈ f.blocks,
      s.caller = f.name ∧ s.block = b.label ∧ b.instrs[s.index]? = some (.call s.call) := by
  simp only [callSites, Func.callSites, List.mem_flatMap, Block.mem_callSites_iff]

theorem mem_callSites {p : Program} {s : CallSite} (h : s ∈ p.callSites) :
    ∃ f ∈ p.functions, s.caller = f.name ∧ s.call ∈ f.calls := by
  obtain ⟨f, hf, b, hb, hcaller, -, hi⟩ := mem_callSites_iff.mp h
  have hinstr : .call s.call ∈ f.instrs := List.mem_flatMap.mpr ⟨b, hb, List.mem_of_getElem? hi⟩
  exact ⟨f, hf, hcaller, List.mem_filterMap.mpr ⟨_, hinstr, rfl⟩⟩

/-- Every call has a place. -/
theorem exists_callSite {p : Program} {f : Func} (hf : f ∈ p.functions) {call : Call}
    (hcall : call ∈ f.calls) : ∃ s ∈ p.callSites, s.caller = f.name ∧ s.call = call := by
  obtain ⟨i, hi, hic⟩ := List.mem_filterMap.mp hcall
  obtain ⟨b, hb, hib⟩ := List.mem_flatMap.mp hi
  obtain ⟨index, hindex⟩ := List.mem_iff_getElem?.mp hib
  cases i with
  | call c =>
      cases hic
      exact ⟨⟨f.name, b.label, index, call⟩,
        mem_callSites_iff.mpr ⟨f, hf, b, hb, rfl, rfl, hindex⟩, rfl, rfl⟩
  | op | store | ret => cases hic

end Program

/-! ## Calls and their places -/

/-- What can be read off the members of a scan without their positions. -/
theorem map_filterMap_zipIdx {α β γ δ : Type} {g : α → Option β} {k : Nat → β → γ} {r : γ → δ}
    {s : β → δ} (h : ∀ index b, r (k index b) = s b) (as : List α) :
    (as.zipIdx.filterMap fun x => (g x.1).map (k x.2)).map r = (as.filterMap g).map s := by
  have hfst : as = as.zipIdx.map Prod.fst := by rw [List.zipIdx_map_fst]
  rw [hfst, List.filterMap_map, ← hfst, List.map_filterMap, List.map_filterMap]
  simp only [Option.map_map, Function.comp_def, h]

/-- What the members of a list contribute does not depend on their positions. -/
theorem flatMap_zipIdx_fst {α β : Type} (k : α → List β) (as : List α) :
    (as.zipIdx.flatMap fun x => k x.1) = as.flatMap k := by
  rw [← List.flatMap_map Prod.fst, List.zipIdx_map_fst]

/-- Without the places, the call sites of a function are its calls. -/
theorem Func.map_callSites (f : Func) :
    f.callSites.map (fun s => (s.caller, s.call)) = f.calls.map fun call => (f.name, call) := by
  have hblock : ∀ b : Block, (b.callSites f.name).map (fun s => (s.caller, s.call)) =
      (b.instrs.filterMap Instr.call?).map fun call => (f.name, call) :=
    fun b => map_filterMap_zipIdx
      (k := fun index call => { caller := f.name, block := b.label, index, call : CallSite })
      (fun _ _ => rfl) b.instrs
  rw [callSites, List.map_flatMap, calls, instrs, List.filterMap_flatMap, List.map_flatMap]
  simp only [hblock]

theorem Program.map_callSites (p : Program) :
    p.callSites.map (fun s => (s.caller, s.call)) =
      p.functions.flatMap fun f => f.calls.map fun call => (f.name, call) := by
  rw [callSites, List.map_flatMap]
  simp only [Func.map_callSites]

end ClosedWorld

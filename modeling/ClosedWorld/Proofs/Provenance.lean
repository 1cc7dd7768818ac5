import ClosedWorld.Proofs.Run

/-!
# Where the parts of an output come from

A run makes very little up. Every function of the program that it leaves is one
of the program that it was given: the name and the types are the same, and every
instruction is an old one in which zeros may stand for registers
(`Func.Yields`). Every global is an old one too, perhaps with the zero of its
type, except for the entry table.

The zeros in a function are zeros of what its calls return. A second elimination
takes them from the calls that the first has left, which return what they
returned before, so what a whole run leaves is described like what one stage
leaves.
-/

namespace ClosedWorld

/-! ## Functions -/

namespace Func

/-- The constant is the zero of what some call of the function returns. -/
def HasReturnZero (f : Func) (c : Constant) : Prop :=
  ∃ call ∈ f.calls, Constant.zeroOf? call.ret = some c

/-- `f'` is `f` without some of its instructions, and with zeros for registers in
the others. -/
structure Yields (f f' : Func) : Prop where
  name : f'.name = f.name
  ret : f'.ret = f.ret
  params : f'.params = f.params
  instrs : ∃ σ : Reg → Option Constant, (∀ r c, σ r = some c → f.HasReturnZero c) ∧
    ∀ i' ∈ f'.instrs, ∃ i ∈ f.instrs, i.mapOperands (·.substitute σ) = i'

theorem Yields.refl (f : Func) : f.Yields f where
  name := rfl
  ret := rfl
  params := rfl
  instrs := by
    refine ⟨fun _ => none, nofun, fun i hi => ⟨i, hi, ?_⟩⟩
    simp only [Operand.substitute_none, Instr.mapOperands_id]

theorem Yields.exists_call {f f' : Func} (h : f.Yields f') {call' : Call}
    (hcall' : call' ∈ f'.calls) : ∃ call ∈ f.calls, call.ret = call'.ret := by
  obtain ⟨σ, -, hinstrs⟩ := h.instrs
  obtain ⟨i', hi', hcall'⟩ := List.mem_filterMap.mp hcall'
  obtain ⟨i, hi, rfl⟩ := hinstrs i' hi'
  rw [Instr.call?_mapOperands] at hcall'
  obtain ⟨call, hcall, rfl⟩ := Option.map_eq_some_iff.mp hcall'
  exact ⟨call, List.mem_filterMap.mpr ⟨i, hi, hcall⟩, rfl⟩

theorem Yields.trans {f f' f'' : Func} (h : f.Yields f') (h' : f'.Yields f'') : f.Yields f'' where
  name := h'.name.trans h.name
  ret := h'.ret.trans h.ret
  params := h'.params.trans h.params
  instrs := by
    obtain ⟨σ, hσ, hinstrs⟩ := h.instrs
    obtain ⟨τ, hτ, hinstrs'⟩ := h'.instrs
    refine ⟨fun r => (σ r).or (τ r), ?_, ?_⟩
    · intro r c hc
      rcases Option.or_eq_some_iff.mp hc with hc | ⟨-, hc⟩
      · exact hσ r c hc
      · obtain ⟨call', hcall', hzero⟩ := hτ r c hc
        obtain ⟨call, hcall, hret⟩ := h.exists_call hcall'
        exact ⟨call, hcall, by rw [hret, hzero]⟩
    · intro i'' hi''
      obtain ⟨i', hi', rfl⟩ := hinstrs' i'' hi''
      obtain ⟨i, hi, rfl⟩ := hinstrs i' hi'
      refine ⟨i, hi, ?_⟩
      simp only [Instr.mapOperands_mapOperands, Operand.substitute_substitute]

theorem yields_eliminate (doomed : Call → Bool) (f : Func) : f.Yields (f.eliminate doomed) where
  name := rfl
  ret := rfl
  params := rfl
  instrs := by
    refine ⟨f.zeroFor? doomed, ?_, ?_⟩
    · intro r c hc
      obtain ⟨call, hcall, hzero⟩ := Option.bind_eq_some_iff.mp hc
      exact ⟨call, List.mem_of_find?_eq_some hcall, hzero⟩
    · intro i' hi'
      obtain ⟨i, hi, -, rfl⟩ := mem_instrs_eliminate.mp hi'
      exact ⟨i, hi, rfl⟩

theorem yields_strippedIn (names : List String) (f : Func) : f.Yields (f.strippedIn names) := by
  rw [strippedIn]
  split
  · refine ⟨rfl, rfl, rfl, fun _ => none, ?_, List.forall_mem_nil _⟩
    rintro _ _ ⟨⟩
  · exact .refl f

end Func

/-! ## Globals -/

/-- A global that lacks a zero gets it, and every other one stays. -/
theorem Global.zeroed_cases (g : Global) :
    g.zeroed = g ∨
      ∃ zero, Constant.zeroOf? g.ty = some zero ∧ g.zeroed = { g with initial := some zero } := by
  rw [zeroed]
  split
  next hneeds =>
      cases hzero : Constant.zeroOf? g.ty with
      | some zero => exact Or.inr ⟨zero, rfl, rfl⟩
      | none =>
          have hinitial : g.initial = none := by simpa using (Bool.and_eq_true_iff.mp hneeds).2
          rw [← hinitial]
          exact Or.inl rfl
  next => exact Or.inl rfl

theorem Global.zeroed_zeroed (g : Global) : g.zeroed.zeroed = g.zeroed := by
  rcases g.zeroed_cases with heq | ⟨zero, -, heq⟩
  · rw [heq, heq]
  · have hneeds : ({ g with initial := some zero } : Global).needsZero = false := Bool.and_false _
    rw [heq, zeroed, hneeds]
    rfl

theorem Config.zeroed_entryTableGlobal (c : Config) :
    c.entryTableGlobal.zeroed = c.entryTableGlobal := rfl

/-! ## Programs -/

/-- `q` is made of parts of `p`. -/
structure Program.Yields (c : Config) (p q : Program) : Prop where
  keyed : q.Keyed
  functions : ∀ f' ∈ q.functions, ∃ f ∈ p.functions, f.Yields f'
  globals : ∀ g' ∈ q.globals,
    g' = c.entryTableGlobal ∨ ∃ g ∈ p.globals, g' = g ∨ g' = g.zeroed

namespace Program

variable {c : Config} {p q : Program}

theorem Yields.refl (hp : p.Keyed) : p.Yields c p where
  keyed := hp
  functions := fun f hf => ⟨f, hf, .refl f⟩
  globals := fun g hg => Or.inr ⟨g, hg, Or.inl rfl⟩

theorem keyed_eliminate (hp : p.Keyed) (t : TrustList) : (p.eliminate t).Keyed := by
  rw [Keyed, functionNames_eliminate]
  exact hp

theorem Yields.eliminate (h : p.Yields c q) (t : TrustList) : p.Yields c (q.eliminate t) where
  keyed := keyed_eliminate h.keyed t
  functions := by
    intro f'' hf''
    obtain ⟨f', hf', rfl⟩ := List.mem_map.mp hf''
    obtain ⟨f, hf, hyields⟩ := h.functions f' hf'
    exact ⟨f, hf, hyields.trans (f'.yields_eliminate _)⟩
  globals := h.globals

/-- The table is added under a name that no global has. -/
theorem keyed_prepared {plan : EntryPlan} (hp : p.Keyed) (hplan : p.entryPlan c = .ok plan) :
    (p.prepared c plan).Keyed := by
  rw [Keyed, functionNames_prepared]
  refine ⟨hp.1, ?_⟩
  obtain ⟨-, -, -, ⟨rfl, hfree⟩ | ⟨rfl, -⟩⟩ := entryPlan_eq_ok hplan
  · rw [globalNames_prepared, ← List.map_append]
    exact nodup_map_concat (a := c.entryTableGlobal) hp.2 (global?_eq_none_iff.mp hfree)
  · rw [globalNames_prepared, EntryPlan.tables, List.map_nil, List.append_nil]
    exact hp.2

theorem Yields.prepared (h : p.Yields c q) {plan : EntryPlan} (hplan : q.entryPlan c = .ok plan) :
    p.Yields c (q.prepared c plan) where
  keyed := keyed_prepared h.keyed hplan
  functions := by
    intro f'' hf''
    obtain ⟨f', hf', rfl⟩ := List.mem_map.mp hf''
    obtain ⟨f, hf, hyields⟩ := h.functions f' hf'
    exact ⟨f, hf, hyields.trans (f'.yields_strippedIn _)⟩
  globals := by
    intro g'' hg''
    rcases List.mem_append.mp hg'' with hg'' | hg''
    · obtain ⟨g', hg', rfl⟩ := List.mem_map.mp hg''
      rcases h.globals g' hg' with rfl | ⟨g, hg, rfl | rfl⟩
      · exact Or.inl c.zeroed_entryTableGlobal
      · exact Or.inr ⟨g', hg, Or.inr rfl⟩
      · exact Or.inr ⟨g, hg, Or.inr g.zeroed_zeroed⟩
    · cases plan with
      | keep => cases hg''
      | create => exact Or.inl (List.mem_singleton.mp hg'')

end Program

/-! ## Runs -/

namespace Config

variable {c : Config} {p q : Program}

theorem keyed_runStage (hp : p.Keyed) (s : Stage) : (c.runStage p s).program.Keyed := by
  obtain hprogram | ⟨-, hprogram⟩ | ⟨-, plan, hplan, hprogram⟩ := c.runStage_program_cases p s
  · rw [hprogram]
    exact hp
  · rw [hprogram]
    exact Program.keyed_eliminate hp c.trustList
  · rw [hprogram]
    exact Program.keyed_prepared hp hplan

theorem yields_runStage (h : p.Yields c q) {s : Stage} {b : Bool}
    (hb : (c.runStage q s).result = .ok b) : p.Yields c (c.runStage q s).program := by
  obtain ⟨-, -, hprogram⟩ | ⟨-, -, hprogram⟩ | ⟨-, plan, hplan, hprogram⟩ := runStage_eq_ok hb
  · rw [hprogram]
    exact h
  · rw [hprogram]
    exact h.eliminate c.trustList
  · rw [hprogram]
    exact h.prepared hplan

theorem yields_run (hp : p.Keyed) {report : Report} (h : (c.run p).result = .ok report) :
    p.Yields c (c.run p).program := by
  obtain ⟨-, b, hs, hprogram⟩ := run_eq_ok h
  rw [hprogram]
  exact runStages_induction (I := fun _ q => p.Yields c q)
    (fun _ _ _ _ h hs => yields_runStage h hs) (.refl hp) hs

end Config

end ClosedWorld

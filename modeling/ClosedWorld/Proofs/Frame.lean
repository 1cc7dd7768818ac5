import ClosedWorld.Proofs.EntryTable
import Mathlib.Data.List.Forall2

/-!
# What no run changes

A run takes away calls and bodies and puts in zeros and a table, and this file is
about everything else. Functions and globals keep their places, their names and
their types. A function that is not to be stripped keeps its linkage and its
blocks, and in every block what is left of the instructions is what it was but
for the operands. A global that has its value keeps it.

No success is needed. A run can stop at any point, so what it leaves is related
to its input by a relation that every single step extends
(`Program.Frame.eliminate`, `Program.Frame.prepared`), whatever came before it.
The one step that would extend the list of globals a second time does not: a
preparation that finds the table adds none.
-/

namespace ClosedWorld

/-! ## Blocks -/

/-- The instruction with all its operands made alike. What is left to see is its
kind, its result, its types and its opcode, and how many operands it has. -/
def Instr.outline (i : Instr) : Instr := i.mapOperands fun _ => .arg 0

theorem Instr.outline_mapOperands (i : Instr) (g : Operand → Operand) :
    (i.mapOperands g).outline = i.outline := i.mapOperands_mapOperands g _

theorem Instr.isNone_call?_outline (i : Instr) : i.outline.call?.isNone = i.call?.isNone := by
  rw [outline, call?_mapOperands, Option.isNone_map]

namespace Block

/-- `b'` is `b` without some of its calls, and perhaps with other operands. -/
structure Frame (b b' : Block) : Prop where
  label : b'.label = b.label
  order : (b'.instrs.map Instr.outline).Sublist (b.instrs.map Instr.outline)
  others : (b'.instrs.map Instr.outline).filter (·.call?.isNone) =
    (b.instrs.map Instr.outline).filter (·.call?.isNone)

variable {b b' : Block}

theorem Frame.refl (b : Block) : b.Frame b where
  label := rfl
  order := List.Sublist.refl _
  others := rfl

theorem Frame.dropCalls (h : b.Frame b') (test : Call → Bool) : b.Frame (b'.dropCalls test) where
  label := h.label
  order := by
    have hsub : (b'.dropCalls test).instrs.Sublist b'.instrs := List.filter_sublist
    exact (hsub.map Instr.outline).trans h.order
  others := by
    rw [← h.others, Block.dropCalls, ClosedWorld.dropCalls, List.filter_map, List.filter_map,
      List.filter_filter]
    congr 1
    refine List.filter_congr fun i _ => ?_
    rw [Function.comp_apply, Instr.isNone_call?_outline]
    cases i.call? <;> rfl

theorem Frame.mapOperands (h : b.Frame b') (g : Operand → Operand) :
    b.Frame (b'.mapInstrs (·.mapOperands g)) := by
  have houtlines : (b'.mapInstrs (·.mapOperands g)).instrs.map Instr.outline =
      b'.instrs.map Instr.outline := by
    rw [mapInstrs, List.map_map]
    exact List.map_congr_left fun i _ => i.outline_mapOperands g
  refine ⟨h.label, ?_, ?_⟩
  · rw [houtlines]
    exact h.order
  · rw [houtlines]
    exact h.others

end Block

/-! ## Functions -/

namespace Func

/-- `f'` has the name and the type of `f`, and no body if `f` has none. Unless it
is one of the named functions, which may be stripped, it has the linkage and the
blocks of `f`. -/
structure Frame (names : List String) (f f' : Func) : Prop where
  name : f'.name = f.name
  ret : f'.ret = f.ret
  params : f'.params = f.params
  variadic : f'.variadic = f.variadic
  declaration : f.isDeclaration = true → f'.isDeclaration = true
  linkage : f.name ∉ names → f'.linkage = f.linkage
  blocks : f.name ∉ names → List.Forall₂ Block.Frame f.blocks f'.blocks

variable {names : List String} {f f' : Func}

theorem Frame.refl (names : List String) (f : Func) : f.Frame names f where
  name := rfl
  ret := rfl
  params := rfl
  variadic := rfl
  declaration := id
  linkage := fun _ => rfl
  blocks := fun _ => List.forall₂_same.mpr fun b _ => .refl b

theorem Frame.eliminate (h : f.Frame names f') (doomed : Call → Bool) :
    f.Frame names (f'.eliminate doomed) where
  name := h.name
  ret := h.ret
  params := h.params
  variadic := h.variadic
  declaration := fun hdecl => (isDeclaration_eliminate doomed f').trans (h.declaration hdecl)
  linkage := h.linkage
  blocks := by
    intro hname
    rw [blocks_eliminate, List.forall₂_map_right_iff]
    exact (h.blocks hname).imp fun _ _ hb => (hb.dropCalls doomed).mapOperands _

theorem Frame.strippedIn (h : f.Frame names f') : f.Frame names (f'.strippedIn names) := by
  rw [Func.strippedIn]
  split
  next hmem =>
      rw [h.name] at hmem
      exact ⟨h.name, h.ret, h.params, h.variadic, fun _ => rfl, fun hname => absurd hmem hname,
        fun hname => absurd hmem hname⟩
  next => exact h

end Func

/-! ## Globals -/

namespace Global

/-- `g'` is `g`, except that it may have been given a value that `g` lacked. -/
structure Frame (g g' : Global) : Prop where
  name : g'.name = g.name
  ty : g'.ty = g.ty
  isConstant : g'.isConstant = g.isConstant
  linkage : g'.linkage = g.linkage
  initial : g.isConstant = true ∨ g.initial.isSome = true → g'.initial = g.initial

theorem Frame.refl (g : Global) : g.Frame g where
  name := rfl
  ty := rfl
  isConstant := rfl
  linkage := rfl
  initial := fun _ => rfl

theorem Frame.zeroed {g g' : Global} (h : g.Frame g') : g.Frame g'.zeroed := by
  rw [Global.zeroed]
  split
  next hneeds =>
      refine ⟨h.name, h.ty, h.isConstant, h.linkage, fun hkept => ?_⟩
      have hinitial := h.initial hkept
      rw [needsZero, h.isConstant, hinitial] at hneeds
      rcases hkept with hconstant | hsome
      · simp [hconstant] at hneeds
      · simp [← Option.not_isSome, hsome] at hneeds
  next => exact h

end Global

/-! ## Programs -/

namespace Program

/-- `q` has the functions of `p` and its globals, each in its place and in its
frame, and behind these at most the table, if there is a stage to add it. -/
structure Frame (c : Config) (p q : Program) : Prop where
  name : q.name = p.name
  functions : List.Forall₂ (Func.Frame c.stripped) p.functions q.functions
  globals : ∃ kept added, q.globals = kept ++ added ∧ List.Forall₂ Global.Frame p.globals kept ∧
    (added = [] ∨ .prepare ∈ c.stages ∧ added = [c.entryTableGlobal])

variable {c : Config} {p q : Program}

theorem Frame.refl (c : Config) (p : Program) : p.Frame c p where
  name := rfl
  functions := List.forall₂_same.mpr fun f _ => .refl c.stripped f
  globals := ⟨p.globals, [], (List.append_nil _).symm,
    List.forall₂_same.mpr fun g _ => .refl g, Or.inl rfl⟩

theorem Frame.functionNames (h : p.Frame c q) :
    q.functions.map Func.name = p.functions.map Func.name := by
  have hnames : List.Forall₂ (· = ·) (q.functions.map Func.name) (p.functions.map Func.name) := by
    rw [List.forall₂_map_left_iff, List.forall₂_map_right_iff]
    exact h.functions.flip.imp fun _ _ hf => hf.name
  rwa [List.forall₂_eq_eq_eq] at hnames

theorem Frame.eliminate (h : p.Frame c q) (t : TrustList) : p.Frame c (q.eliminate t) where
  name := h.name
  functions := List.forall₂_map_right_iff.mpr (h.functions.imp fun _ _ hf => hf.eliminate _)
  globals := h.globals

theorem Frame.prepared (h : p.Frame c q) {plan : EntryPlan} (hmem : .prepare ∈ c.stages)
    (hplan : q.entryPlan c = .ok plan) : p.Frame c (q.prepared c plan) where
  name := h.name
  functions := List.forall₂_map_right_iff.mpr (h.functions.imp fun _ _ hf => hf.strippedIn)
  globals := by
    obtain ⟨kept, added, hglobals, hkept, hadded⟩ := h.globals
    have hzeroed : List.Forall₂ Global.Frame p.globals (kept.map Global.zeroed) :=
      List.forall₂_map_right_iff.mpr (hkept.imp fun _ _ hg => hg.zeroed)
    refine ⟨kept.map Global.zeroed, added.map Global.zeroed ++ plan.tables c, ?_, hzeroed, ?_⟩
    · rw [Program.prepared, hglobals, List.map_append, List.append_assoc]
    · rcases hadded with rfl | ⟨-, rfl⟩
      · cases plan with
        | create => exact Or.inr ⟨hmem, rfl⟩
        | keep => exact Or.inl rfl
      · -- The table that was added is found, and no other is.
        have htable : (q.global? c.entryTable).isSome = true := by
          rw [isSome_global?, hglobals, List.map_append]
          exact List.mem_append_right _ List.mem_cons_self
        obtain ⟨g, hg⟩ := Option.isSome_iff_exists.mp htable
        cases entryPlan_eq_keep hplan hg
        exact Or.inr ⟨hmem, rfl⟩

end Program

/-! ## Runs -/

/-- **What no run changes**, however it is configured and wherever it stops. The
program keeps its name, its functions keep their names, and each function and
each global stays in its frame. What there is to add is the table. -/
theorem Config.run_frame (c : Config) (p : Program) :
    p.Frame c (c.run p).program ∧
      (c.run p).program.functions.map Func.name = p.functions.map Func.name := by
  have hframe : p.Frame c (c.run p).program := by
    refine run_preserves_of_stages (P := p.Frame c) (fun s hs q hq => ?_) (.refl c p)
    obtain hprogram | ⟨-, hprogram⟩ | ⟨rfl, plan, hplan, hprogram⟩ := c.runStage_program_cases q s
    · rw [hprogram]
      exact hq
    · rw [hprogram]
      exact hq.eliminate c.trustList
    · rw [hprogram]
      exact hq.prepared hs hplan
  exact ⟨hframe, hframe.functionNames⟩

end ClosedWorld

import ClosedWorld.Proofs.Preparation
import ClosedWorld.Proofs.Resolution

/-!
# What ends a stage

Each of the two stages that change a program can fail, and either looks at
everything before it acts. This file says for exactly which programs they fail,
with which error, and which error it is when there are several reasons.

Preparation has four reasons in a fixed order (`Program.EntryFault`), one of them
about the globals, of which the first one counts. Elimination looks at the calls
in reading order and stops at the first one that it cannot deal with
(`Program.CallFault`). It gets there by three loops, over the functions of the
program, the blocks of a function and the instructions of a block. They come to
one pass over the call sites, because the first error of a nested pass is the
first error of the flat one.

Whatever the reason, nothing has happened to the program by then, and nothing has
been reported.
-/

namespace ClosedWorld

/-! ## Preparation -/

theorem Constant.zeroOf?_eq_none_iff {t : Ty} :
    Constant.zeroOf? t = none ↔ t = .void ∨ t.IsFunction := by
  cases t <;> simp [zeroOf?, Ty.IsFunction]

/-- The global needs a zero, and no value has its type. -/
structure Global.LacksZero (g : Global) : Prop where
  mutable : g.isConstant = false
  uninitialized : g.initial = none
  valueless : g.ty = .void ∨ g.ty.IsFunction

theorem Global.needsZero_iff {g : Global} :
    g.needsZero = true ↔ g.isConstant = false ∧ g.initial = none := by
  rw [needsZero, Bool.and_eq_true, Bool.not_eq_true', Option.isNone_iff_eq_none]

theorem Global.lacksZero_iff {g : Global} :
    (g.needsZero && (Constant.zeroOf? g.ty).isNone) = true ↔ g.LacksZero := by
  rw [Bool.and_eq_true, needsZero_iff, Option.isNone_iff_eq_none, Constant.zeroOf?_eq_none_iff]
  exact ⟨fun ⟨⟨hmutable, hnone⟩, hvalueless⟩ => ⟨hmutable, hnone, hvalueless⟩,
    fun h => ⟨⟨h.mutable, h.uninitialized⟩, h.valueless⟩⟩

namespace Program

/-- Why a program cannot be prepared: there is no entry function, a global lacks a
zero, the name of the table belongs to a function, or there is a table where there
must not be one. A reason counts only where those before it do not apply. -/
inductive EntryFault (p : Program) (c : Config) : Error → Prop
  | noEntry : c.entryFunction ∉ p.functions.map Func.name →
      EntryFault p c (.missingEntryPoint c.entryFunction)
  | noZero {g : Global} : c.entryFunction ∈ p.functions.map Func.name →
      IsFirst Global.LacksZero p.globals g → EntryFault p c (.noZeroValue g.name g.ty)
  | tableIsFunction : c.entryFunction ∈ p.functions.map Func.name →
      (∀ g ∈ p.globals, ¬ g.LacksZero) → c.entryTable ∈ p.functions.map Func.name →
      EntryFault p c (.duplicateSymbol c.entryTable)
  | tableExists : c.entryFunction ∈ p.functions.map Func.name →
      (∀ g ∈ p.globals, ¬ g.LacksZero) → c.entryTable ∉ p.functions.map Func.name →
      c.entryTable ∈ p.globals.map Global.name → c.tablePolicy = .reject →
      EntryFault p c (.entryTableExists c.entryTable)

theorem find?_lacksZero_eq_none_iff {gs : List Global} :
    (gs.find? fun g => g.needsZero && (Constant.zeroOf? g.ty).isNone) = none ↔
      ∀ g ∈ gs, ¬ g.LacksZero := by
  simp only [List.find?_eq_none, Global.lacksZero_iff]

theorem entryPlan_eq_error_iff {p : Program} {c : Config} {e : Error} :
    p.entryPlan c = .error e ↔ p.EntryFault c e := by
  have hentry : (p.function? c.entryFunction).isNone = true ↔
      c.entryFunction ∉ p.functions.map Func.name := by
    rw [Option.isNone_iff_eq_none, function?_eq_none_iff]
  constructor
  · intro h
    rw [entryPlan] at h
    split at h
    next hnone =>
        cases h
        exact .noEntry (hentry.mp hnone)
    next hsome =>
        have hsome := Decidable.not_not.mp (mt hentry.mpr hsome)
        split at h
        next g hg =>
            cases h
            exact .noZero hsome ((find?_eq_some_iff_isFirst fun _ => Global.lacksZero_iff).mp hg)
        next hzeros =>
            have hzeros := find?_lacksZero_eq_none_iff.mp hzeros
            split at h
            next htable =>
                cases h
                exact .tableIsFunction hsome hzeros ((isSome_function? p _).mp htable)
            next htable =>
                have htable := mt (isSome_function? p _).mpr htable
                split at h
                next => cases h
                next => cases h
                next g hg hreject =>
                    cases h
                    exact .tableExists hsome hzeros htable
                      ((isSome_global? p _).mp (by rw [hg]; rfl)) hreject
  · intro h
    cases h with
    | noEntry hnone => rw [entryPlan, if_pos (hentry.mpr hnone)]
    | noZero hsome hfirst =>
        rw [entryPlan, if_neg fun hnone => hentry.mp hnone hsome,
          (find?_eq_some_iff_isFirst fun _ => Global.lacksZero_iff).mpr hfirst]
    | tableIsFunction hsome hzeros htable =>
        rw [entryPlan, if_neg fun hnone => hentry.mp hnone hsome,
          find?_lacksZero_eq_none_iff.mpr hzeros]
        exact if_pos ((isSome_function? p _).mpr htable)
    | tableExists hsome hzeros htable hglobal hreject =>
        obtain ⟨g, hg⟩ := Option.isSome_iff_exists.mp ((isSome_global? p _).mpr hglobal)
        rw [entryPlan, if_neg fun hnone => hentry.mp hnone hsome,
          find?_lacksZero_eq_none_iff.mpr hzeros, function?_eq_none_iff.mpr htable, hg, hreject]
        rfl

theorem prepared_eq {p : Program} {c : Config} {plan : EntryPlan} (h : p.entryPlan c = .ok plan) :
    p.prepared c plan =
      { p with
        functions := p.functions.map fun f =>
          if f.name ∈ c.stripped then { f with body := none, linkage := .external } else f
        globals :=
          (p.globals.map fun g =>
            if g.isConstant = false ∧ g.initial = none then
              { g with initial := Constant.zeroOf? g.ty }
            else g) ++
          if c.entryTable ∈ p.globals.map Global.name then [] else [c.entryTableGlobal] } := by
  have hzeroed : Global.zeroed = fun g =>
      if g.isConstant = false ∧ g.initial = none then { g with initial := Constant.zeroOf? g.ty }
      else g := by
    funext g
    simp only [Global.zeroed, Global.needsZero_iff]
  have htables : plan.tables c =
      if c.entryTable ∈ p.globals.map Global.name then [] else [c.entryTableGlobal] := by
    obtain ⟨-, -, -, ⟨rfl, hnone⟩ | ⟨rfl, hsome⟩⟩ := entryPlan_eq_ok h
    · rw [if_neg (global?_eq_none_iff.mp hnone)]
      rfl
    · rw [if_pos ((isSome_global? p _).mp hsome)]
      rfl
  rw [prepared, hzeroed, htables]
  rfl

/-- **Preparation is all or nothing.** It fails for one of four reasons, the first
that applies, and then nothing has changed and nothing is reported. Where none
applies it goes through: the stripped functions are external and have no body,
the globals that needed a zero have the zero of their type, which exists, the
table stands last unless there was one, and all else is as it was. -/
theorem prepareEntry_all_or_nothing (p : Program) (c : Config) :
    (∀ e, (p.prepareEntry c).result = .error e ↔ p.EntryFault c e) ∧
    (∀ e, p.EntryFault c e →
      (p.prepareEntry c).program = p ∧ (p.prepareEntry c).diagnostics = []) ∧
    ((∀ e, ¬ p.EntryFault c e) →
      (p.prepareEntry c).result = .ok true ∧
      (p.prepareEntry c).program =
        { p with
          functions := p.functions.map fun f =>
            if f.name ∈ c.stripped then { f with body := none, linkage := .external } else f
          globals :=
            (p.globals.map fun g =>
              if g.isConstant = false ∧ g.initial = none then
                { g with initial := Constant.zeroOf? g.ty }
              else g) ++
            if c.entryTable ∈ p.globals.map Global.name then [] else [c.entryTableGlobal] } ∧
      ∀ g ∈ p.globals, g.isConstant = false → g.initial = none →
        ∃ zero, Constant.zeroOf? g.ty = some zero) := by
  cases hplan : p.entryPlan c with
  | error e =>
      have hfault : p.EntryFault c e := entryPlan_eq_error_iff.mp hplan
      have hfail := prepareEntry_of_error hplan
      refine ⟨fun e' => ?_, fun _ _ => ?_, fun hnone => absurd hfault (hnone e)⟩
      · rw [← entryPlan_eq_error_iff, hplan, hfail, Outcome.check_result, Except.error.injEq,
          Except.error.injEq]
      · rw [hfail]
        exact ⟨rfl, rfl⟩
  | ok plan =>
      have hnone : ∀ e, ¬ p.EntryFault c e := by
        intro e he
        rw [entryPlan_eq_error_iff.mpr he] at hplan
        cases hplan
      obtain ⟨hok, hprogram⟩ := prepareEntry_of_ok hplan
      refine ⟨fun e => ?_, fun e he => absurd he (hnone e), fun _ => ⟨hok, ?_, ?_⟩⟩
      · rw [hok]
        exact ⟨nofun, fun he => absurd he (hnone e)⟩
      · rw [hprogram, prepared_eq hplan]
      · intro g hg hmutable huninitialized
        exact (entryPlan_eq_ok hplan).2.1 g hg (Global.needsZero_iff.mpr ⟨hmutable, huninitialized⟩)

/-- A program with two globals that lack a zero, and one that would if it were not
constant. -/
def furnishing : Program where
  functions := [
    { name := "kzalloc", ret := .bytePtr, linkage := .internal },
    { name := "main", ret := .void }]
  globals := [
    { name := "lamp", ty := .int 32 },
    { name := "stairs", ty := .void, isConstant := true },
    { name := "door", ty := .func .void [] false },
    { name := "shelf", ty := .void }]

theorem prepareEntry_all_or_nothing_furnishing :
    let c : Config := {}
    let p : Program := { furnishing with globals := furnishing.globals.take 2 }
    (furnishing.prepareEntry c).result = .error (.noZeroValue "door" (.func .void [] false)) ∧
      (furnishing.prepareEntry c).program = furnishing ∧
      (p.prepareEntry c).result = .ok true ∧
      (p.prepareEntry c).program.functions =
        [{ name := "kzalloc", ret := .bytePtr, linkage := .external },
          { name := "main", ret := .void }] ∧
      (p.prepareEntry c).program.globals =
        [{ name := "lamp", ty := .int 32, initial := some (.int 32 0) },
          { name := "stairs", ty := .void, isConstant := true }, c.entryTableGlobal] := by
  intro c p
  obtain ⟨hfails, hkeeps, -⟩ := prepareEntry_all_or_nothing furnishing c
  have hfault : furnishing.EntryFault c (.noZeroValue "door" (.func .void [] false)) := by
    refine .noZero (g := { name := "door", ty := .func .void [] false }) (by decide)
      ⟨⟨rfl, rfl, Or.inr ⟨_, _, _, rfl⟩⟩, furnishing.globals.take 2, _, rfl, ?_⟩
    simp only [← Global.lacksZero_iff]
    decide
  have hok : (p.prepareEntry c).result = .ok true := eq_ok_of_toOption (by decide +kernel)
  have hnone : ∀ e, ¬ p.EntryFault c e := by
    intro e he
    rw [((prepareEntry_all_or_nothing p c).1 e).mpr he] at hok
    cases hok
  have hprogram := ((prepareEntry_all_or_nothing p c).2.2 hnone).2.1
  refine ⟨(hfails _).mpr hfault, (hkeeps _ hfault).1, hok, ?_, ?_⟩
  · rw [hprogram]
    decide +kernel
  · rw [hprogram]
    decide +kernel

/-! ## Elimination -/

/-- Three loops, one inside the other, come to one pass over the calls. -/
theorem error?_deleteUndefined (p : Program) (c : Config) :
    error? (p.deleteUndefined c).result =
      p.callSites.findSome? fun s => p.callFault? c.trustList s.caller s.call := by
  have hresult : error? (p.deleteUndefined c).result = error? (p.removalPlan c.trustList) := by
    rw [deleteUndefined]
    cases p.removalPlan c.trustList <;> rfl
  have hflat : (p.callSites.findSome? fun s => p.callFault? c.trustList s.caller s.call) =
      (p.callSites.map fun s => (s.caller, s.call)).findSome? fun x =>
        p.callFault? c.trustList x.1 x.2 := by
    rw [List.findSome?_map]
    rfl
  rw [hresult, error?_removalPlan, hflat, map_callSites, findSome?_flatMap]
  simp only [List.findSome?_map, Function.comp_def]

/-- **Elimination fails at the first call that it cannot deal with.** It fails if
there is such a call, and in no other case; the error is that of the first one in
reading order; and then nothing has changed and nothing is reported. -/
theorem deleteUndefined_fails_at_first (p : Program) (c : Config) :
    ((∃ e, (p.deleteUndefined c).result = .error e) ↔
      ∃ s ∈ p.callSites, ∃ e, p.CallFault c.trustList s.caller s.call e) ∧
    (∀ e, (p.deleteUndefined c).result = .error e ↔
      ∃ s, IsFirst (fun s => ∃ e, p.CallFault c.trustList s.caller s.call e) p.callSites s ∧
        p.CallFault c.trustList s.caller s.call e) ∧
    (∀ e, (p.deleteUndefined c).result = .error e →
      (p.deleteUndefined c).program = p ∧ (p.deleteUndefined c).diagnostics = []) := by
  have hfirst : ∀ e, (p.deleteUndefined c).result = .error e ↔
      ∃ s, IsFirst (fun s => ∃ e, p.CallFault c.trustList s.caller s.call e) p.callSites s ∧
        p.CallFault c.trustList s.caller s.call e := by
    intro e
    rw [← error?_eq_some_iff, error?_deleteUndefined]
    exact findSome?_eq_some_iff_isFirst (R := fun (s : CallSite) e =>
      p.CallFault c.trustList s.caller s.call e) fun _ _ => callFault?_eq_some_iff
  refine ⟨?_, hfirst, fun e he => ?_⟩
  · simp only [hfirst]
    rw [← exists_isFirst_iff]
    constructor
    · rintro ⟨e, s, hs, -⟩
      exact ⟨s, hs⟩
    · rintro ⟨s, hs⟩
      obtain ⟨e, he⟩ := hs.1
      exact ⟨e, s, hs, he⟩
  · rcases p.deleteUndefined_cases c with ⟨e', -, hfail⟩ | ⟨b, hb, -⟩
    · rw [hfail]
      exact ⟨rfl, rfl⟩
    · rw [hb] at he
      cases he

/-- A program with two calls that elimination cannot deal with, behind one to the
same function that it can. -/
def misdialing : Program where
  functions := [
    { name := "dial", ret := .func .void [] false },
    { name := "main", ret := .void, body := some [
      { label := "entry", instrs := [
        .call ⟨none, .func .void [] false, .func "dial", []⟩,
        .ret none] },
      { label := "again", instrs := [
        .call ⟨some ⟨0⟩, .func .void [] false, .cast (.func "dial") .bytePtr, []⟩,
        .call ⟨none, .void, .func "nobody", []⟩,
        .ret none] }] }]

theorem deleteUndefined_fails_at_first_misdialing :
    let c : Config := {}
    (misdialing.deleteUndefined c).result =
        .error (.noZeroValue "dial" (.func .void [] false)) ∧
      (misdialing.deleteUndefined c).program = misdialing ∧
      (misdialing.deleteUndefined c).diagnostics = [] := by
  intro c
  obtain ⟨-, hfirst, hkeeps⟩ := deleteUndefined_fails_at_first misdialing c
  have hfault : ∀ (caller : String) (call : Call), call.callee.callee? = some "dial" →
      call.result = some ⟨0⟩ → call.ret = .func .void [] false →
      misdialing.CallFault c.trustList caller call (.noZeroValue "dial" call.ret) :=
    fun _ _ hname hresult hret => .noZero hname (by decide) rfl rfl (by decide +kernel)
      (by decide +kernel) hresult ⟨_, _, _, hret⟩
  -- Nothing is bound by the first call, so no zero is asked for.
  have hpasses : misdialing.callFault? c.trustList "main"
      ⟨none, .func .void [] false, .func "dial", []⟩ = none := by decide +kernel
  have hresult : (misdialing.deleteUndefined c).result =
      .error (.noZeroValue "dial" (.func .void [] false)) := by
    refine (hfirst _).mpr ⟨⟨"main", "again", 0, _⟩, ⟨⟨_, hfault "main" _ rfl rfl rfl⟩,
      [⟨"main", "entry", 0, _⟩], _, rfl, fun s hs => ?_⟩, hfault "main" _ rfl rfl rfl⟩
    rw [List.mem_singleton.mp hs]
    rintro ⟨e, he⟩
    rw [callFault?_eq_some_iff.mpr he] at hpasses
    cases hpasses
  exact ⟨hresult, hkeeps _ hresult⟩

end Program

end ClosedWorld

import ClosedWorld.Proofs.Resolution

/-!
# What the scan for unsupported calls finds

The scan goes through three loops, one inside the other. Of the calls that it
meets it passes over most, and at any of them it may end with an error. What it
should come to can be said without a walk: every call has a position, positions
are in reading order, and whether a call leads nowhere
(`Program.AstrayAt`) or is to be reported (`Program.UnsupportedAt`) is a matter of
this call alone. `Program.unsupportedCalls_exact` compares the two. The scan fails
if some call leads nowhere, and then with the error of the first such call;
otherwise it lists the calls that are to be reported, every one of them once and
in order.

Reports do not tell positions apart. Two blocks of a function can have the same
label, and then two calls can have equal reports. So the list of reports is
compared together with the positions, which it does not show.
-/

namespace ClosedWorld

/-! ## Positions -/

/-- Where an instruction stands in a program. -/
structure Position where
  /-- The position of its function. -/
  func : Nat
  /-- The position of its block in the function. -/
  block : Nat
  /-- Its own position in the block. -/
  index : Nat
  deriving DecidableEq

/-- A reader comes to `x` first. -/
def Position.Before (x y : Position) : Prop :=
  x.func < y.func ∨
    x.func = y.func ∧ (x.block < y.block ∨ x.block = y.block ∧ x.index < y.index)

theorem Position.Before.asymm {x y : Position} (h : x.Before y) : ¬ y.Before x := by
  rw [Before] at h ⊢
  omega

/-- A list is walked over from front to back. -/
theorem pairwise_zipIdx {α : Type} (as : List α) : as.zipIdx.Pairwise fun x y => x.2 < y.2 := by
  rw [← List.pairwise_map, List.zipIdx_map_snd]
  exact List.pairwise_lt_range' 1

/-- What the members of a list contribute is in order, if it is in order for each
of them and for any two of them. -/
theorem pairwise_flatMap_zipIdx {α β : Type} {r : β → β → Prop} {k : α × Nat → List β}
    {as : List α} (hmember : ∀ x, (k x).Pairwise r)
    (hmembers : ∀ x y, x.2 < y.2 → ∀ b ∈ k x, ∀ b' ∈ k y, r b b') :
    (as.zipIdx.flatMap k).Pairwise r :=
  List.pairwise_flatMap.mpr
    ⟨fun x _ => hmember x, (pairwise_zipIdx as).imp fun hlt => hmembers _ _ hlt⟩

/-! ## Calls at positions -/

namespace Program

/-- The call stands at a position, in this function and this block. -/
structure CallAt (p : Program) (x : Position) (f : Func) (b : Block) (call : Call) : Prop where
  func : p.functions[x.func]? = some f
  block : f.blocks[x.block]? = some b
  instr : b.instrs[x.index]? = some (.call call)

/-- The call at a position leads nowhere, and this is the error. -/
inductive AstrayAt (p : Program) : Position → Error → Prop
  /-- The name of the callee is empty. -/
  | unnamed {x : Position} {f : Func} {b : Block} {call : Call} :
      p.CallAt x f b call → call.callee.Names "" → AstrayAt p x (.unnamedCallee f.name)
  /-- The program has no function of that name. -/
  | dangling {x : Position} {f : Func} {b : Block} {call : Call} {name : String} :
      p.CallAt x f b call → call.callee.Names name → name ≠ "" →
      name ∉ p.functions.map Func.name → AstrayAt p x (.danglingSymbol f.name name)

/-- The call at a position leads to one of the functions, which is no intrinsic, and
this is its report. -/
inductive UnsupportedAt (p : Program) (names : List String) : Position → UnsupportedCall → Prop
  | intro {x : Position} {f : Func} {b : Block} {call : Call} {name : String} :
      p.CallAt x f b call → call.callee.Names name → name ∈ names →
      isIntrinsicName name = false →
      UnsupportedAt p names x
        { caller := f.name, block := b.label, index := x.index, callee := name }

theorem astrayAt_iff {p : Program} {x : Position} {e : Error} :
    p.AstrayAt x e ↔ ∃ f b call, p.CallAt x f b call ∧ p.Astray f.name call e := by
  constructor
  · intro h
    cases h with
    | unnamed hat hnames =>
        exact ⟨_, _, _, hat, .unnamed (Operand.callee?_eq_some_iff.mpr hnames)⟩
    | dangling hat hnames hne hlacking =>
        exact ⟨_, _, _, hat, .dangling (Operand.callee?_eq_some_iff.mpr hnames) hne hlacking⟩
  · rintro ⟨f, b, call, hat, hastray⟩
    cases hastray with
    | unnamed hname => exact .unnamed hat (Operand.callee?_eq_some_iff.mp hname)
    | dangling hname hne hlacking =>
        exact .dangling hat (Operand.callee?_eq_some_iff.mp hname) hne hlacking

/-! ## The walk, with positions -/

/-- The call sites, each with its position. -/
def placedSites (p : Program) : List (Position × CallSite) :=
  p.functions.zipIdx.flatMap fun (f, func) =>
    f.blocks.zipIdx.flatMap fun (b, block) =>
      (b.callSites f.name).map fun s => ({ func, block, index := s.index }, s)

theorem map_snd_placedSites (p : Program) : p.placedSites.map Prod.snd = p.callSites := by
  simp only [placedSites, List.map_flatMap, List.map_map, Function.comp_def, List.map_id',
    flatMap_zipIdx_fst (Block.callSites _)]
  exact flatMap_zipIdx_fst Func.callSites p.functions

theorem mem_placedSites {p : Program} {x : Position} {s : CallSite} :
    (x, s) ∈ p.placedSites ↔
      ∃ f b, p.CallAt x f b s.call ∧ s.caller = f.name ∧ s.block = b.label ∧ s.index = x.index := by
  simp only [placedSites, List.mem_flatMap, List.mem_map, Prod.exists,
    List.mem_zipIdx_iff_getElem?, Block.mem_callSites_iff, Prod.mk.injEq]
  constructor
  · rintro ⟨f, func, hf, b, block, hb, s', ⟨hcaller, hlabel, hi⟩, rfl, rfl⟩
    exact ⟨f, b, ⟨hf, hb, hi⟩, hcaller, hlabel, rfl⟩
  · rintro ⟨f, b, hat, hcaller, hlabel, hindex⟩
    refine ⟨f, x.func, hat.func, b, x.block, hat.block, s, ⟨hcaller, hlabel, ?_⟩, ?_, rfl⟩
    · rw [hindex]
      exact hat.instr
    · rw [hindex]

theorem pairwise_before_placedSites (p : Program) :
    p.placedSites.Pairwise fun u v => u.1.Before v.1 := by
  refine pairwise_flatMap_zipIdx (fun ⟨f, func⟩ => ?_) ?_
  · refine pairwise_flatMap_zipIdx (fun ⟨b, block⟩ => ?_) ?_
    · rw [List.pairwise_map, Block.callSites, List.pairwise_filterMap]
      refine (pairwise_zipIdx b.instrs).imp fun hlt s hs s' hs' => ?_
      obtain ⟨call, -, rfl⟩ := Option.map_eq_some_iff.mp hs
      obtain ⟨call', -, rfl⟩ := Option.map_eq_some_iff.mp hs'
      exact Or.inr ⟨rfl, Or.inr ⟨rfl, hlt⟩⟩
    · rintro ⟨b, block⟩ ⟨b', block'⟩ hlt u hu v hv
      obtain ⟨s, -, rfl⟩ := List.mem_map.mp hu
      obtain ⟨s', -, rfl⟩ := List.mem_map.mp hv
      exact Or.inr ⟨rfl, Or.inl hlt⟩
  · rintro ⟨f, func⟩ ⟨f', func'⟩ hlt u hu v hv
    obtain ⟨⟨b, block⟩, -, hu⟩ := List.mem_flatMap.mp hu
    obtain ⟨s, -, rfl⟩ := List.mem_map.mp hu
    obtain ⟨⟨b', block'⟩, -, hv⟩ := List.mem_flatMap.mp hv
    obtain ⟨s', -, rfl⟩ := List.mem_map.mp hv
    exact Or.inl hlt

/-! ## Calls that lead nowhere -/

theorem astrayAt_iff_mem {p : Program} {x : Position} {e : Error} :
    p.AstrayAt x e ↔ ∃ s, (x, s) ∈ p.placedSites ∧ p.Astray s.caller s.call e := by
  rw [astrayAt_iff]
  constructor
  · rintro ⟨f, b, call, hat, hastray⟩
    exact ⟨⟨f.name, b.label, x.index, call⟩, mem_placedSites.mpr ⟨f, b, hat, rfl, rfl, rfl⟩,
      hastray⟩
  · rintro ⟨s, hs, hastray⟩
    obtain ⟨f, b, hat, hcaller, -, -⟩ := mem_placedSites.mp hs
    exact ⟨f, b, s.call, hat, hcaller ▸ hastray⟩

theorem unsupportedCalls_eq_error_iff {p : Program} {names : List String} {e : Error} :
    p.unsupportedCalls names = .error e ↔
      ∃ x, p.AstrayAt x e ∧ ∀ y, y.Before x → ∀ e', ¬ p.AstrayAt y e' := by
  have hfirst : p.unsupportedCalls names = .error e ↔
      ∃ u, IsFirst (fun u => ∃ e, p.Astray u.2.caller u.2.call e) p.placedSites u ∧
        p.Astray u.2.caller u.2.call e := by
    rw [unsupportedCalls, ← error?_eq_some_iff, error?_filterMapM, ← map_snd_placedSites,
      List.findSome?_map]
    refine findSome?_eq_some_iff_isFirst (R := fun (u : Position × CallSite) e =>
      p.Astray u.2.caller u.2.call e) fun u e => ?_
    rw [Function.comp_apply, error?_eq_some_iff, unsupported?_eq_error_iff]
  simp only [hfirst, isFirst_iff_of_pairwise p.pairwise_before_placedSites
    (fun _ _ h => Position.Before.asymm h), astrayAt_iff_mem]
  constructor
  · rintro ⟨⟨x, s⟩, ⟨-, hmem, hnone⟩, hastray⟩
    refine ⟨x, ⟨s, hmem, hastray⟩, ?_⟩
    rintro y hy e' ⟨s', hmem', hastray'⟩
    exact hnone (y, s') hmem' hy ⟨e', hastray'⟩
  · rintro ⟨x, ⟨s, hmem, hastray⟩, hnone⟩
    refine ⟨(x, s), ⟨⟨e, hastray⟩, hmem, ?_⟩, hastray⟩
    rintro ⟨y, s'⟩ hmem' hy ⟨e', hastray'⟩
    exact hnone y hy e' ⟨s', hmem', hastray'⟩

/-- A scan that goes through has met no call that leads nowhere. -/
theorem not_astrayAt_of_ok {p : Program} {names : List String} {found : List UnsupportedCall}
    (h : p.unsupportedCalls names = .ok found) (x : Position) (e : Error) : ¬ p.AstrayAt x e := by
  intro hastray
  obtain ⟨s, hs, hastray⟩ := astrayAt_iff_mem.mp hastray
  have hmem : s ∈ p.callSites := by
    rw [← map_snd_placedSites]
    exact List.mem_map_of_mem hs
  obtain ⟨o, ho⟩ := (filterMapM_eq_ok h).1 s hmem
  rw [unsupported?_eq_error_iff.mpr hastray] at ho
  cases ho

/-! ## Calls that are reported -/

/-- The reports, each with the position of its call. -/
def unsupportedSites (p : Program) (names : List String) : List (Position × UnsupportedCall) :=
  p.placedSites.filterMap fun (x, s) => (s.unsupported? names).map fun u => (x, u)

theorem map_snd_unsupportedSites (p : Program) (names : List String) :
    (p.unsupportedSites names).map Prod.snd = p.callSites.filterMap (·.unsupported? names) := by
  rw [unsupportedSites, ← map_snd_placedSites, List.filterMap_map, List.map_filterMap]
  simp only [Option.map_map, Function.comp_def, Option.map_id']

theorem pairwise_before_unsupportedSites (p : Program) (names : List String) :
    (p.unsupportedSites names).Pairwise fun u v => u.1.Before v.1 := by
  rw [unsupportedSites, List.pairwise_filterMap]
  refine p.pairwise_before_placedSites.imp fun hbefore u hu v hv => ?_
  obtain ⟨-, -, rfl⟩ := Option.map_eq_some_iff.mp hu
  obtain ⟨-, -, rfl⟩ := Option.map_eq_some_iff.mp hv
  exact hbefore

theorem mem_unsupportedSites {p : Program} {names : List String} {x : Position}
    {u : UnsupportedCall} : (x, u) ∈ p.unsupportedSites names ↔ p.UnsupportedAt names x u := by
  rw [unsupportedSites, List.mem_filterMap]
  constructor
  · rintro ⟨⟨x', s⟩, hs, hu⟩
    obtain ⟨u', hu', heq⟩ := Option.map_eq_some_iff.mp hu
    cases heq
    obtain ⟨f, b, hat, hcaller, hlabel, hindex⟩ := mem_placedSites.mp hs
    obtain ⟨name, hnames, hlisted, hintrinsic, rfl⟩ := CallSite.unsupported?_eq_some_iff.mp hu'
    rw [hcaller, hlabel, hindex]
    exact .intro hat hnames hlisted hintrinsic
  · intro h
    cases h with
    | @intro f b call name hat hnames hlisted hintrinsic =>
        refine ⟨(x, ⟨f.name, b.label, x.index, call⟩),
          mem_placedSites.mpr ⟨f, b, hat, rfl, rfl, rfl⟩, Option.map_eq_some_iff.mpr ⟨_, ?_, rfl⟩⟩
        exact CallSite.unsupported?_eq_some_iff.mpr ⟨name, hnames, hlisted, hintrinsic, rfl⟩

/-- **The scan for unsupported calls is exact.** It fails if, and only if, some call
leads nowhere, with the error of the first such call. Otherwise its reports, with
the positions of their calls written beside them, are in reading order, and they
are the reports that are due, one for each position. -/
theorem unsupportedCalls_exact (p : Program) (names : List String) :
    ((∃ e, p.unsupportedCalls names = .error e) ↔ ∃ x e, p.AstrayAt x e) ∧
    (∀ e, p.unsupportedCalls names = .error e ↔
      ∃ x, p.AstrayAt x e ∧ ∀ y, y.Before x → ∀ e', ¬ p.AstrayAt y e') ∧
    ((∀ x e, ¬ p.AstrayAt x e) →
      ∃ found : List (Position × UnsupportedCall),
        p.unsupportedCalls names = .ok (found.map Prod.snd) ∧
        found.Pairwise (fun u v => u.1.Before v.1) ∧
        ∀ x u, (x, u) ∈ found ↔ p.UnsupportedAt names x u) := by
  refine ⟨⟨?_, ?_⟩, fun e => unsupportedCalls_eq_error_iff, fun hnone => ?_⟩
  · rintro ⟨e, he⟩
    obtain ⟨x, hastray, -⟩ := unsupportedCalls_eq_error_iff.mp he
    exact ⟨x, e, hastray⟩
  · rintro ⟨x, e, hastray⟩
    cases hscan : p.unsupportedCalls names with
    | error e' => exact ⟨e', rfl⟩
    | ok found => exact absurd hastray (not_astrayAt_of_ok hscan x e)
  · refine ⟨p.unsupportedSites names, ?_, p.pairwise_before_unsupportedSites names,
      fun _ _ => mem_unsupportedSites⟩
    cases hscan : p.unsupportedCalls names with
    | error e =>
        obtain ⟨x, hastray, -⟩ := unsupportedCalls_eq_error_iff.mp hscan
        exact absurd hastray (hnone x e)
    | ok found => rw [unsupportedCalls_eq_ok hscan, map_snd_unsupportedSites]

/-- A program with two blocks of one label, which start with calls to the same
function. -/
def forking : Program where
  functions := [
    { name := "fork", ret := .int 32 },
    { name := "llvm.trap", ret := .void },
    { name := "main", ret := .int 32, body := some [
      { label := "work", instrs := [
        .call ⟨some ⟨0⟩, .int 32, .cast (.cast (.func "fork") .bytePtr) .bytePtr, []⟩,
        .call ⟨none, .void, .func "llvm.trap", []⟩] },
      { label := "work", instrs := [
        .call ⟨none, .int 32, .func "fork", [.reg ⟨0⟩]⟩,
        .call ⟨none, .int 32, .const (.funcAddr "fork"), []⟩,
        .ret (some (.reg ⟨0⟩))] }] }]

theorem unsupportedCalls_exact_forking :
    let names := ["llvm.trap", "FORK", "fork"]
    let u : UnsupportedCall := { caller := "main", block := "work", index := 0, callee := "fork" }
    let broken : Program := { functions := forking.functions.tail }
    (∀ x e, ¬ forking.AstrayAt x e) ∧
      (∃ found : List (Position × UnsupportedCall), found.map Prod.snd = [u, u] ∧
        (⟨2, 0, 0⟩, u) ∈ found ∧ (⟨2, 1, 0⟩, u) ∈ found ∧
        found.Pairwise (fun u v => u.1.Before v.1) ∧
        ∀ x u, (x, u) ∈ found ↔ forking.UnsupportedAt names x u) ∧
      ∃ x, broken.AstrayAt x (.danglingSymbol "main" "fork") ∧
        ∀ y, y.Before x → ∀ e, ¬ broken.AstrayAt y e := by
  intro names u broken
  have hscan : forking.unsupportedCalls names = .ok [u, u] :=
    eq_ok_of_toOption (by decide +kernel)
  have hbroken : broken.unsupportedCalls names = .error (.danglingSymbol "main" "fork") := rfl
  obtain ⟨hfails, -, hfound⟩ := unsupportedCalls_exact forking names
  have hnone : ∀ x e, ¬ forking.AstrayAt x e := by
    intro x e hastray
    obtain ⟨e', he'⟩ := hfails.mpr ⟨x, e, hastray⟩
    rw [hscan] at he'
    cases he'
  obtain ⟨found, hok, hsorted, hmem⟩ := hfound hnone
  rw [hscan] at hok
  refine ⟨hnone, ⟨found, (Except.ok.inj hok).symm, ?_, ?_, hsorted, hmem⟩, ?_⟩
  · exact (hmem _ _).mpr (mem_unsupportedSites.mp (by decide +kernel))
  · exact (hmem _ _).mpr (mem_unsupportedSites.mp (by decide +kernel))
  · exact ((unsupportedCalls_exact broken names).2.1 _).mp hbroken

end Program

end ClosedWorld

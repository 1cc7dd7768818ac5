import ClosedWorld.Proofs.Closure

/-!
# Callees, seen through casts

The address of a function can be seen at another type in two places. An operand
can be cast, and a constant inside an operand can be one cast of another. A call
is resolved through the casts of the first kind only: what it comes to is the
operand under the casts, and if that is a constant the call leads nowhere that
can be told, even if the constant is an address.

So there are two relations between operands and functions. One says that the
operand is the function itself under casts (`Operand.Names`), and this is what
resolution computes. The other says that its value is the address of the
function (`Operand.Denotes`), and this differs from the first just in the
constants.

The two stages that ask where calls lead miss no call of the first kind, except
that the scan for unsupported calls passes over intrinsics.
-/

namespace ClosedWorld

/-! ## The two relations -/

/-- The constant is the address of the function, at whatever type. -/
inductive Constant.Denotes (name : String) : Constant → Prop where
  | address : Denotes name (.funcAddr name)
  | bitcast {value : Constant} {ty : Ty} : Denotes name value → Denotes name (.bitcast value ty)

namespace Operand

/-- The value of the operand is the address of the function, at whatever type. -/
inductive Denotes (name : String) : Operand → Prop where
  | func : Denotes name (.func name)
  | const {k : Constant} : k.Denotes name → Denotes name (.const k)
  | cast {value : Operand} {ty : Ty} : Denotes name value → Denotes name (.cast value ty)

/-- The operand is the function itself, under any number of casts. -/
inductive Names (name : String) : Operand → Prop where
  | func : Names name (.func name)
  | cast {value : Operand} {ty : Ty} : Names name value → Names name (.cast value ty)

theorem Names.denotes {v : Operand} {name : String} (h : v.Names name) : v.Denotes name := by
  induction h with
  | func => exact .func
  | cast _ ih => exact .cast ih

theorem callee?_eq_some_iff {v : Operand} {name : String} :
    v.callee? = some name ↔ v.Names name := by
  constructor
  · intro h
    induction v with
    | func name' =>
        cases h
        exact .func
    | cast value ty ih => exact .cast (ih h)
    | global | reg | arg | const | asm => cases h
  · intro h
    induction h with
    | func => rfl
    | cast _ ih => exact ih

theorem callee?_eq_none_iff {v : Operand} : v.callee? = none ↔ ∀ name, ¬ v.Names name := by
  simp only [← callee?_eq_some_iff, Option.eq_none_iff_forall_ne_some]

theorem Denotes.names_or_const {v : Operand} {name : String} (h : v.Denotes name) :
    v.Names name ∨ ∃ k, v.core = .const k := by
  induction h with
  | func => exact Or.inl .func
  | const _ => exact Or.inr ⟨_, rfl⟩
  | cast _ ih =>
      rcases ih with hnames | hconst
      · exact Or.inl (.cast hnames)
      · exact Or.inr hconst

theorem Names.core_ne_const {v : Operand} {name : String} (h : v.Names name) (k : Constant) :
    v.core ≠ .const k := by
  induction h with
  | func => exact fun h => nomatch h
  | cast _ ih => exact ih

/-- The relations differ in constants only. -/
theorem names_iff_denotes {v : Operand} {name : String} :
    v.Names name ↔ v.Denotes name ∧ ∀ k, v.core ≠ .const k := by
  constructor
  · intro h
    exact ⟨h.denotes, h.core_ne_const⟩
  · intro ⟨hdenotes, hconst⟩
    refine hdenotes.names_or_const.resolve_right fun ⟨k, hk⟩ => ?_
    exact hconst k hk

end Operand

/-! ## The scan for unsupported calls -/

/-- What the scan reports of a call that leads somewhere or nowhere. -/
def CallSite.unsupported? (names : List String) (s : CallSite) : Option UnsupportedCall :=
  (s.call.callee.callee?.filter fun name => !isIntrinsicName name && names.contains name).map
    fun callee => { caller := s.caller, block := s.block, index := s.index, callee }

theorem CallSite.unsupported?_eq_some_iff {names : List String} {s : CallSite}
    {u : UnsupportedCall} :
    s.unsupported? names = some u ↔
      ∃ name, s.call.callee.Names name ∧ name ∈ names ∧ isIntrinsicName name = false ∧
        { caller := s.caller, block := s.block, index := s.index, callee := name } = u := by
  simp only [unsupported?, Option.map_eq_some_iff, Option.filter_eq_some_iff,
    Operand.callee?_eq_some_iff, Bool.and_eq_true, Bool.not_eq_true', List.contains_iff_mem]
  constructor
  · rintro ⟨name, ⟨hnames, hintrinsic, hlisted⟩, hu⟩
    exact ⟨name, hnames, hlisted, hintrinsic, hu⟩
  · rintro ⟨name, hnames, hlisted, hintrinsic, hu⟩
    exact ⟨name, ⟨hnames, hintrinsic, hlisted⟩, hu⟩

namespace Program

theorem unsupported?_eq_ok {p : Program} {names : List String} {s : CallSite}
    {o : Option UnsupportedCall} (h : p.unsupported? names s = .ok o) :
    o = s.unsupported? names := by
  rw [unsupported?, subject?] at h
  obtain ⟨subject, hsubject, h⟩ := bind_eq_ok.mp h
  obtain ⟨target, htarget, hfilter⟩ := bind_eq_ok.mp hsubject
  have hsubject : target.filter (!·.isIntrinsic) = subject := pure_eq_ok.mp hfilter
  rw [CallSite.unsupported?]
  rcases target?_eq_ok htarget with ⟨hnone, rfl⟩ | ⟨name, f, hname, hf, rfl⟩
  · subst hsubject
    cases h
    rw [hnone]
    rfl
  · rw [Option.filter_some, Func.isIntrinsic, function?_name hf] at hsubject
    rw [hname, Option.filter_some]
    cases hintrinsic : isIntrinsicName name with
    | true =>
        rw [hintrinsic] at hsubject
        subst hsubject
        cases h
        rfl
    | false =>
        rw [hintrinsic] at hsubject
        subst hsubject
        simp only [Bool.not_false, if_true, function?_name hf] at h
        cases hlisted : names.contains name with
        | true =>
            rw [hlisted] at h
            cases h
            rfl
        | false =>
            rw [hlisted] at h
            cases h
            rfl

/-- A scan that goes through reports what there is to report of each call, in
the order of the calls. -/
theorem unsupportedCalls_eq_ok {p : Program} {names : List String} {found : List UnsupportedCall}
    (h : p.unsupportedCalls names = .ok found) :
    found = p.callSites.filterMap (·.unsupported? names) :=
  (filterMapM_eq_ok h).2 _ fun _ _ _ ho => unsupported?_eq_ok ho

theorem Resolved.unsupportedCalls {p : Program} (hp : p.Resolved) (names : List String) :
    p.unsupportedCalls names = .ok (p.callSites.filterMap (·.unsupported? names)) := by
  cases h : p.unsupportedCalls names with
  | ok found => rw [unsupportedCalls_eq_ok h]
  | error e =>
      have hok := (checkUnsupported_eq_ok (c := { unsupported := names })).mpr ⟨rfl, hp⟩
      rw [checkUnsupported, h] at hok
      cases hok

/-! ## What the stages miss -/

/-- **Calls are resolved through casts of operands.** An operand leads to the
function that it is under its casts, if it is one, and this is the function
whose address it denotes, unless it is a constant. On a program that passes
verification the scan reports every such call to an unsupported function that is
no intrinsic. Elimination, unless it lacks a zero, leaves such calls only to
intrinsics, to trusted functions and to functions with a body. -/
theorem calls_resolved_through_casts {p : Program} (hp : p.verify = .ok ()) (c : Config) :
    (∀ (v : Operand) (name : String), v.callee? = some name ↔ v.Names name) ∧
    (∀ v : Operand, v.callee? = none ↔ ∀ name, ¬ v.Names name) ∧
    (∀ (v : Operand) (name : String),
      v.Names name ↔ v.Denotes name ∧ ∀ k, v.core ≠ .const k) ∧
    (∃ found, p.unsupportedCalls c.unsupported = .ok found ∧
      ∀ f ∈ p.functions, ∀ b ∈ f.blocks, ∀ (index : Nat) (call : Call) (name : String),
        b.instrs[index]? = some (.call call) → call.callee.Names name →
        name ∈ c.unsupported → isIntrinsicName name = false →
          { caller := f.name, block := b.label, index, callee := name } ∈ found) ∧
    ((∃ symbol ty, p.deleteUndefined c = .check p (.error (.noZeroValue symbol ty))) ∨
      (∃ b, (p.deleteUndefined c).result = .ok b) ∧
        ∀ f ∈ (p.deleteUndefined c).program.functions, ∀ call ∈ f.calls, ∀ name,
          call.callee.Names name →
            isIntrinsicName name = true ∨ c.trustList.trusts name = true ∨
              ∃ g, (p.deleteUndefined c).program.function? name = some g ∧
                g.isDeclaration = false) := by
  have hwf : p.WellFormed := verify_eq_ok_iff.mp hp
  refine ⟨fun _ _ => Operand.callee?_eq_some_iff, fun _ => Operand.callee?_eq_none_iff,
    fun _ _ => Operand.names_iff_denotes, ⟨_, hwf.resolved.unsupportedCalls _, ?_⟩, ?_⟩
  · intro f hf b hb index call name hcall hnames hlisted hintrinsic
    have hsite : ⟨f.name, b.label, index, call⟩ ∈ p.callSites :=
      mem_callSites_iff.mpr ⟨f, hf, b, hb, rfl, rfl, hcall⟩
    have hname : call.callee.callee? = some name := Operand.callee?_eq_some_iff.mpr hnames
    refine List.mem_filterMap.mpr ⟨_, hsite, ?_⟩
    rw [CallSite.unsupported?, hname, Option.filter_some, hintrinsic,
      List.contains_iff_mem.mpr hlisted]
    rfl
  · rcases hwf.deleteUndefined c with hfail | ⟨b, hb, hprogram, -⟩
    · exact Or.inl hfail
    · refine Or.inr ⟨⟨b, hb⟩, fun f hf call hcall name hnames => ?_⟩
      rw [hprogram] at hf ⊢
      exact closed_eliminate hwf.resolved f hf call hcall name
        (Operand.callee?_eq_some_iff.mpr hnames)

/-- A program that calls one function under a cast and by its address in a
constant, and also calls an intrinsic. -/
def starting : Program where
  functions := [
    { name := "pthread_create", ret := .int 32 },
    { name := "llvm.trap", ret := .void },
    { name := "main", ret := .int 32, body := some [
      { label := "entry", instrs := [
        .call ⟨none, .int 32, .cast (.func "pthread_create") .bytePtr, []⟩,
        .call ⟨none, .int 32, .const (.bitcast (.funcAddr "pthread_create") .bytePtr), []⟩,
        .call ⟨none, .void, .func "llvm.trap", []⟩,
        .ret none] }] }]

theorem calls_resolved_through_casts_starting :
    let c : Config := { unsupported := ["llvm.trap", "pthread_create"] }
    starting.verify = .ok () ∧
    (∃ found, starting.unsupportedCalls c.unsupported = .ok found ∧
      { caller := "main", block := "entry", index := 0, callee := "pthread_create" } ∈ found) ∧
    (∃ b, (starting.deleteUndefined c).result = .ok b) ∧
      ∀ f ∈ (starting.deleteUndefined c).program.functions, ∀ call ∈ f.calls,
        ¬ call.callee.Names "pthread_create" := by
  intro c
  have hp : starting.verify = .ok () := rfl
  obtain ⟨-, -, -, ⟨found, hfound, hall⟩, hcalls⟩ := calls_resolved_through_casts hp c
  refine ⟨hp, ⟨found, hfound, ?_⟩, ?_⟩
  · exact hall _ (List.mem_cons_of_mem _ (List.mem_cons_of_mem _ List.mem_cons_self)) _
      List.mem_cons_self 0 _ "pthread_create" rfl (.cast .func) (by decide +kernel)
      (by decide +kernel)
  · have hok : (starting.deleteUndefined c).result.isOk = true := by decide +kernel
    have hdecl : ((starting.deleteUndefined c).program.function? "pthread_create").all
        Func.isDeclaration = true := by decide +kernel
    rcases hcalls with ⟨symbol, ty, hfail⟩ | ⟨hresult, hcalls⟩
    · rw [hfail] at hok
      cases hok
    · refine ⟨hresult, fun f hf call hcall hnames => ?_⟩
      rcases hcalls f hf call hcall _ hnames with h | h | ⟨g, hg, hbody⟩
      · exact absurd h (by decide +kernel)
      · exact absurd h (by decide +kernel)
      · rw [hg, Option.all_some, hbody] at hdecl
        cases hdecl

/-- The call by the address in a constant is missed, and so is the intrinsic. -/
theorem calls_by_address_starting :
    let c : Config := { unsupported := ["llvm.trap", "pthread_create"] }
    let v : Operand := .const (.bitcast (.funcAddr "pthread_create") .bytePtr)
    starting.verify = .ok () ∧ v.Denotes "pthread_create" ∧ v.callee? = none ∧
      (starting.unsupportedCalls c.unsupported).toOption =
        some [{ caller := "main", block := "entry", index := 0, callee := "pthread_create" }] ∧
      (starting.deleteUndefined c).result.toOption = some true ∧
      (starting.deleteUndefined c).program.functions.flatMap Func.calls =
        [⟨none, .int 32, v, []⟩, ⟨none, .void, .func "llvm.trap", []⟩] := by
  intro c v
  exact ⟨rfl, .const (.bitcast .address), rfl, by decide +kernel, by decide +kernel,
    by decide +kernel⟩

end Program

end ClosedWorld

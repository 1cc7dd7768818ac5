import ClosedWorld.Proofs.Losing

/-!
# Primitives, and who trusts them

The catalogue of primitives and the list of trusted functions are two tables,
and a run asks only the second whether to keep a call. Whether the two agree is
a question for every name in the catalogue. Most carry the mark of primitives,
which is trusted as such. Four aliases from before there was a mark do not, and
the list of trusted functions has one of them.

So calls to a primitive are spared by any number of runs, with the exception of
three aliases (`Oracle.untrustedAliases`). For these a generator that nobody
defines is a function like any other: the first elimination removes the calls to
it, and a constant takes the place of an unconstrained value.
-/

namespace ClosedWorld

namespace Oracle

/-- The names in the catalogue. -/
def names : List String := generators.map (·.1) ++ aliases.map (·.1) ++ controls

/-- The aliases that neither carry the mark nor are trusted by name. -/
def untrustedAliases : List String := ["nondet_char", "nondet_short", "nondet_long"]

theorem isSome_lookup {α : Type} (entries : List (String × α)) (name : String) :
    (entries.lookup name).isSome = true ↔ name ∈ entries.map (·.1) := by
  rw [List.lookup_isSome_iff, List.mem_map]
  constructor
  · intro ⟨entry, hentry, hname⟩
    exact ⟨entry, hentry, (beq_iff_eq.mp hname).symm⟩
  · intro ⟨entry, hentry, hname⟩
    exact ⟨entry, hentry, beq_iff_eq.mpr hname.symm⟩

theorem isPrimitive_iff_mem_names (name : String) : isPrimitive name = true ↔ name ∈ names := by
  have hcanonical : (canonical? name).isSome = true ↔
      name ∈ generators.map (·.1) ∨ name ∈ aliases.map (·.1) := by
    rw [canonical?, ← isSome_lookup, ← isSome_lookup]
    split
    · next h => exact ⟨fun _ => Or.inl h, fun _ => rfl⟩
    · next h => exact ⟨Or.inr, fun h' => h'.resolve_left h⟩
  rw [isPrimitive, Bool.or_eq_true, hcanonical, List.contains_iff_mem, names, List.mem_append,
    List.mem_append]

/-- The usual trust list covers the catalogue but for three names. -/
theorem trusts_iff_of_isPrimitive {name : String} (h : isPrimitive name = true) :
    ({} : Config).trustList.trusts name = true ↔ name ∉ untrustedAliases := by
  have hall : ∀ name ∈ names,
      ({} : Config).trustList.trusts name = true ↔ name ∉ untrustedAliases := by decide +kernel
  exact hall name ((isPrimitive_iff_mem_names name).mp h)

theorem isPrimitive_of_untrustedAlias {name : String} (h : name ∈ untrustedAliases) :
    isPrimitive name = true ∧ isIntrinsicName name = false := by
  have hall : ∀ name ∈ untrustedAliases, isPrimitive name = true ∧ isIntrinsicName name = false := by
    decide +kernel
  exact hall name h

end Oracle

namespace Config

variable {c : Config} {p q : Program} {n : Nat}

/-- **Runs with the usual trust list spare primitives, but not all.** However
often a program is run and whatever the stages, no call to a primitive is lost
and no result of one is replaced by a constant, in any function that keeps its
body, if the primitive is not one of three aliases. Where one of these three is
not defined, the first elimination removes all calls to it. -/
theorem RunsTo.spares_primitives (hnames : c.trustList = ({} : Config).trustList)
    (hin : c.verifyInput = true) (h : c.RunsTo p n q) :
    p.Spares (fun name => Oracle.isPrimitive name = true ∧ name ∉ Oracle.untrustedAliases)
        c.stripped q ∧
      ∀ name ∈ Oracle.untrustedAliases, Oracle.isPrimitive name = true ∧
        (p.Bodiless name → .deleteUndefined ∈ c.stages → 0 < n → q.Uncalled name) := by
  refine ⟨?_, fun name hname => ?_⟩
  · rcases h.wellFormed_start hin with rfl | hp
    · exact .refl _ c.stripped q
    · refine h.spares hp fun _ _ _ _ _ name ⟨hprimitive, halias⟩ => Or.inr (Or.inl ?_)
      rw [hnames]
      exact (Oracle.trusts_iff_of_isPrimitive hprimitive).mpr halias
  · obtain ⟨hprimitive, hintrinsic⟩ := Oracle.isPrimitive_of_untrustedAlias hname
    refine ⟨hprimitive, fun hbodiless hmem hn => ?_⟩
    have huntrusted : c.trustList.trusts name = false := by
      rw [hnames]
      refine Bool.eq_false_iff.mpr fun htrusts => ?_
      exact (Oracle.trusts_iff_of_isPrimitive hprimitive).mp htrusts hname
    exact h.uncalled hn .start ⟨hintrinsic, huntrusted, Or.inl ⟨hmem, hbodiless⟩⟩

/-- A program that draws from two generators: one that it defines, and one that
is left to the verifier under an old name. -/
def tossing : Program where
  functions := [
    { name := "nondet_char", ret := .int 8 },
    { name := "__VERIFIER_nondet_int", ret := .int 32, body := some [
      { label := "entry", instrs := [.ret (some (.const (.int 32 7)))] }] },
    { name := "main", ret := .int 32, body := some [
      { label := "entry", instrs := [
        .call ⟨some ⟨0⟩, .int 8, .func "nondet_char", []⟩,
        .call ⟨some ⟨1⟩, .int 32, .cast (.func "__VERIFIER_nondet_int") .bytePtr, [.reg ⟨0⟩]⟩,
        .ret (some (.reg ⟨1⟩))] }] }]

theorem spares_primitives_tossing :
    let c : Config := {}
    ∃ q, c.RunsTo tossing 2 q ∧
      q.functions.flatMap Func.calls =
        [⟨some ⟨1⟩, .int 32, .cast (.func "__VERIFIER_nondet_int") .bytePtr,
          [.const (.int 8 0)]⟩] ∧
      tossing.Spares
        (fun name => Oracle.isPrimitive name = true ∧ name ∉ Oracle.untrustedAliases)
        c.stripped q ∧
      ∀ name ∈ Oracle.untrustedAliases, Oracle.isPrimitive name = true ∧
        (tossing.Bodiless name → .deleteUndefined ∈ c.stages → 0 < 2 → q.Uncalled name) := by
  intro c
  have hfirst : c.RunsTo tossing 1 (c.run tossing).program :=
    RunsTo.start.next (by decide +kernel)
  have hsecond : c.RunsTo tossing 2 (c.run (c.run tossing).program).program :=
    hfirst.next (by decide +kernel)
  exact ⟨_, hsecond, by decide +kernel, hsecond.spares_primitives rfl rfl⟩

/-- The three aliases are an exception: a single run with the usual configuration
loses a call to one of them. -/
theorem not_spares_primitives_tossing :
    let c : Config := {}
    tossing.verify = .ok () ∧ c.RunsTo tossing 1 (c.run tossing).program ∧
      ¬ tossing.Spares (fun name => Oracle.isPrimitive name = true) c.stripped
        (c.run tossing).program := by
  intro c
  refine ⟨rfl, RunsTo.start.next (by decide +kernel), fun hspares => ?_⟩
  have huncalled : (c.run tossing).program.Uncalled "nondet_char" := by decide +kernel
  exact hspares.not_uncalled (by decide +kernel) "main" rfl (by decide +kernel)
    List.mem_cons_self rfl huncalled

end Config

end ClosedWorld

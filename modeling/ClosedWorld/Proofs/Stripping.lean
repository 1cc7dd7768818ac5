import ClosedWorld.Proofs.Losing

/-!
# Calls to stripped functions

Preparation strips a function so that the verifier takes it for an oracle. Calls
to it are then calls to a function without a body, which is just what
elimination removes. What keeps them is trust, and only trust: nothing in a
configuration ties the stripped functions to the trusted ones, and elimination
looks at the body alone.

This file says what becomes of the calls to a function that is stripped in one
of several runs. If it is trusted or an intrinsic, they are spared. If it is
neither, all depends on whether an elimination still comes after the first
preparation, later in the same run or in a second one. If none does the calls
are spared too, and if one does there are none left.

That it is always the first run which strips the function saves a case
distinction. Bodies do not come back, and every run that prepares anything
strips the whole list.
-/

namespace ClosedWorld.Config

variable {c : Config} {name : String} {p q : Program} {m n : Nat}

/-- A run on the program takes the body of the function away. -/
structure Strips (c : Config) (p : Program) (name : String) : Prop where
  prepares : .prepare ∈ c.stages
  listed : name ∈ c.stripped
  defined : ∃ f, p.function? name = some f ∧ f.isDeclaration = false

/-- In `n` runs with preparation, some elimination comes after a preparation. -/
def EliminatesLate (c : Config) (n : Nat) : Prop :=
  .deleteUndefined ∈ c.stages ∧ ([.prepare, .deleteUndefined].Sublist c.stages ∨ 2 ≤ n)

instance (c : Config) (n : Nat) : Decidable (c.EliminatesLate n) :=
  inferInstanceAs (Decidable (_ ∧ _))

theorem RunsTo.bodiless (h : c.RunsTo p (n + 1) q) (hmem : .prepare ∈ c.stages)
    (hname : name ∈ c.stripped) : q.Bodiless name := by
  cases h with
  | run _ hrun => exact bodiless_run hmem hname hrun

/-- Of several runs only the first strips anything. -/
theorem RunsTo.eq_zero_of_strips (h : c.RunsTo p m q) (hstrips : c.Strips q name) : m = 0 := by
  cases m with
  | zero => rfl
  | succ m =>
      obtain ⟨f, hf, hbody⟩ := hstrips.defined
      have hdecl := h.bodiless hstrips.prepares hstrips.listed f hf
      rw [hbody] at hdecl
      cases hdecl

theorem Strips.guards (hstrips : c.Strips p name) (horder : ¬ c.EliminatesLate 1) :
    c.Guards (· = name) c.stages p := by
  intro hmem name' hname
  rw [hname]
  have hsub : ¬ ([.prepare, .deleteUndefined].Sublist c.stages ∧ name ∈ c.stripped) :=
    fun ⟨hsub, _⟩ => horder ⟨hmem, Or.inl hsub⟩
  exact Or.inr (Or.inr ⟨hstrips.defined, hsub⟩)

/-- **What becomes of the calls to a stripped function.** If one of several runs
strips it, the calls to it are spared by all of them, provided that it is trusted
or an intrinsic or that no elimination comes after a preparation. In every other
case there is no call to it at the end. -/
theorem RunsTo.spares_stripped (hp : p.verify = .ok ()) (h : c.RunsTo p n q) (hm : m < n)
    {p' : Program} (h' : c.RunsTo p m p') (hstrips : c.Strips p' name) :
    (isIntrinsicName name = true ∨ c.trustList.trusts name = true ∨ ¬ c.EliminatesLate n →
      p.Spares (· = name) c.stripped q) ∧
    (isIntrinsicName name = false → c.trustList.trusts name = false → c.EliminatesLate n →
      q.Uncalled name) := by
  have hwf : p.WellFormed := Program.verify_eq_ok_iff.mp hp
  have hzero : m = 0 := h'.eq_zero_of_strips hstrips
  subst hzero
  have hfirst : p' = p := h'.unique .start
  subst hfirst
  constructor
  · intro hkept
    refine h.spares hwf fun k q' hk hq' => ?_
    rcases hkept with hintrinsic | htrusts | horder
    · exact fun _ _ hname => Or.inl (hname ▸ hintrinsic)
    · exact fun _ _ hname => Or.inr (Or.inl (hname ▸ htrusts))
    · by_cases hmem : .deleteUndefined ∈ c.stages
      · -- There is a single run, so every elimination is on the program as it was.
        have hsingle : n = 1 := by
          have hnot : ¬ 2 ≤ n := fun hn => horder ⟨hmem, Or.inr hn⟩
          omega
        subst hsingle
        have hk : k = 0 := by omega
        subst hk
        rw [hq'.unique .start]
        exact hstrips.guards horder
      · exact fun hmem' => absurd hmem' hmem
  · intro hintrinsic huntrusted ⟨hmem, horder⟩
    rcases horder with hsub | hn
    · exact h.uncalled hm .start ⟨hintrinsic, huntrusted, Or.inr ⟨hsub, hstrips.listed⟩⟩
    · obtain ⟨q', hq'⟩ := h.exists_of_le hm
      have hbodiless : q'.Bodiless name := hq'.bodiless hstrips.prepares hstrips.listed
      exact h.uncalled hn hq' ⟨hintrinsic, huntrusted, Or.inl ⟨hmem, hbodiless⟩⟩

/-- A program that defines a function and returns what it draws from it. -/
def rolling : Program where
  functions := [
    { name := "roll", ret := .int 32, body := some [
      { label := "entry", instrs := [.ret (some (.const (.int 32 7)))] }] },
    { name := "main", ret := .int 32, body := some [
      { label := "entry", instrs := [
        .call ⟨some ⟨0⟩, .int 32, .func "roll", []⟩,
        .ret (some (.reg ⟨0⟩))] }] }]

theorem spares_stripped_rolling :
    let c : Config := { stripped := ["roll"] }
    rolling.verify = .ok () ∧ c.Strips rolling "roll" ∧
      (∃ q, c.RunsTo rolling 1 q ∧ rolling.Spares (· = "roll") c.stripped q) ∧
      ∃ q, c.RunsTo rolling 2 q ∧ q.Uncalled "roll" := by
  intro c
  have hp : rolling.verify = .ok () := rfl
  have hstrips : c.Strips rolling "roll" := ⟨by decide, by decide, _, rfl, rfl⟩
  have hfirst : c.RunsTo rolling 1 (c.run rolling).program :=
    RunsTo.start.next (by decide +kernel)
  have hsecond : c.RunsTo rolling 2 (c.run (c.run rolling).program).program :=
    hfirst.next (by decide +kernel)
  refine ⟨hp, hstrips, ⟨_, hfirst, ?_⟩, _, hsecond, ?_⟩
  · exact (hfirst.spares_stripped hp Nat.one_pos .start hstrips).1
      (Or.inr (Or.inr (by decide)))
  · exact (hsecond.spares_stripped hp Nat.two_pos .start hstrips).2 (by decide +kernel)
      (by decide +kernel) (by decide)

/-- Two runs with the usual stages do not spare the calls to a function that the
first of them strips. -/
theorem not_spares_stripped_rolling :
    let c : Config := { stripped := ["roll"] }
    let q := (c.run (c.run rolling).program).program
    c.check = .ok () ∧ rolling.verify = .ok () ∧ c.RunsTo rolling 2 q ∧
      c.Strips rolling "roll" ∧ ¬ rolling.Spares (· = "roll") c.stripped q := by
  intro c q
  have hsecond : c.RunsTo rolling 2 q :=
    (RunsTo.start.next (by decide +kernel)).next (by decide +kernel)
  refine ⟨rfl, rfl, hsecond, ⟨by decide, by decide, _, rfl, rfl⟩, fun hspares => ?_⟩
  have huncalled : q.Uncalled "roll" := by decide +kernel
  exact hspares.not_uncalled rfl "main" rfl (by decide) List.mem_cons_self rfl huncalled

end ClosedWorld.Config

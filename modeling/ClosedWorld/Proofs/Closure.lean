import ClosedWorld.Proofs.Run

/-!
# A closed world

What a run with elimination leaves is closed: no call in it leads to a function
that has to come from elsewhere, unless that function is an intrinsic or trusted
to exist. `Config.run_closed` states it for every order of the stages.

One pass over the calls is enough because substitution makes no call lead
anywhere new. The callee of a call that stays either named its function before
or is read from a register, and a zero put for that register names no function.

Preparation is where a closed program could be opened again, since it takes
bodies away. The calls to a function that loses its body stay closed only
because the function is trusted. That every stripped function is trusted is
therefore a condition of the theorem, and the usual lists meet it.
-/

namespace ClosedWorld

/-- Where the call leads, if that can be told, is an intrinsic, a function that
is trusted to exist, or one with a body. -/
def Call.Settled (t : TrustList) (p : Program) (call : Call) : Prop :=
  ∀ name, call.callee.callee? = some name →
    isIntrinsicName name = true ∨ t.trusts name = true ∨
      ∃ f, p.function? name = some f ∧ f.isDeclaration = false

namespace Program

/-- No call leads to a function that has to come from elsewhere. -/
def Closed (t : TrustList) (p : Program) : Prop :=
  ∀ f ∈ p.functions, ∀ call ∈ f.calls, call.Settled t p

/-- A call that is not doomed is settled, unless it leads to a function that the
program lacks. -/
theorem settled_of_not_doomed {p : Program} {t : TrustList} {call : Call}
    (hd : p.dooms t call = false) (hcall : call.Resolves p) : call.Settled t p := by
  intro name hname
  obtain ⟨f, hf⟩ := Option.isSome_iff_exists.mp (hcall name hname).2
  simp only [dooms, hname, hf, Option.any_some, Bool.and_eq_false_iff, Bool.not_eq_false'] at hd
  rcases hd with (hintrinsic | htrusts) | hbody
  · exact Or.inl hintrinsic
  · exact Or.inr (Or.inl htrusts)
  · exact Or.inr (Or.inr ⟨f, hf, hbody⟩)

/-- Conversely, a settled call is not doomed. -/
theorem not_doomed_of_settled {p : Program} {t : TrustList} {call : Call}
    (h : call.Settled t p) : p.dooms t call = false := by
  rw [dooms]
  cases hname : call.callee.callee? with
  | none => rfl
  | some name =>
      simp only [Bool.and_eq_false_iff, Bool.not_eq_false']
      rcases h name hname with hintrinsic | htrusts | ⟨f, hf, hbody⟩
      · exact Or.inl (Or.inl hintrinsic)
      · exact Or.inl (Or.inr htrusts)
      · rw [hf]
        exact Or.inr hbody

/-! ## What the stages do -/

theorem closed_eliminate {p : Program} {t : TrustList} (hp : p.Resolved) :
    (p.eliminate t).Closed t := by
  intro f' hf' call' hcall' name hname
  obtain ⟨f, hf, rfl⟩ := List.mem_map.mp hf'
  obtain ⟨call, hcall, hd, hcallee⟩ := Func.exists_call_of_eliminate hcall'
  rw [hcallee] at hname
  rcases settled_of_not_doomed hd (hp f hf call hcall) name hname with h | h | ⟨g, hg, hbody⟩
  · exact Or.inl h
  · exact Or.inr (Or.inl h)
  · refine Or.inr (Or.inr ⟨g.eliminate (p.dooms t), ?_, ?_⟩)
    · rw [function?_eliminate, hg, Option.map_some]
    · rw [Func.isDeclaration_eliminate]
      exact hbody

theorem Closed.prepared {p : Program} {t : TrustList} {c : Config} (h : p.Closed t)
    (htrust : ∀ name ∈ c.stripped, t.trusts name = true) (plan : EntryPlan) :
    (p.prepared c plan).Closed t := by
  intro f' hf' call hcall name hname
  obtain ⟨f, hf, rfl⟩ := List.mem_map.mp hf'
  rcases h f hf call (Func.mem_calls_strippedIn hcall) name hname with h | h | ⟨g, hg, hbody⟩
  · exact Or.inl h
  · exact Or.inr (Or.inl h)
  · by_cases hstrip : name ∈ c.stripped
    · exact Or.inr (Or.inl (htrust name hstrip))
    · refine Or.inr (Or.inr ⟨g, ?_, hbody⟩)
      rw [function?_prepared_of_kept hstrip, hg]

end Program

namespace Config

variable {c : Config} {p : Program}

/-- Elimination closes a program, and no stage opens a closed one. -/
theorem runStage_closed (htrust : ∀ name ∈ c.stripped, c.trustList.trusts name = true) {s : Stage}
    (h : .deleteUndefined = s ∨ p.Closed c.trustList) {b : Bool}
    (hb : (c.runStage p s).result = .ok b) : (c.runStage p s).program.Closed c.trustList := by
  obtain ⟨rfl, -, hprogram⟩ | ⟨rfl, hp, hprogram⟩ | ⟨rfl, plan, -, hprogram⟩ :=
    runStage_eq_ok hb
  · rw [hprogram]
    exact h.resolve_left Stage.noConfusion
  · rw [hprogram]
    exact Program.closed_eliminate hp
  · rw [hprogram]
    exact (h.resolve_left Stage.noConfusion).prepared htrust plan

theorem runStages_closed (htrust : ∀ name ∈ c.stripped, c.trustList.trusts name = true)
    {ss : List Stage} (h : .deleteUndefined ∈ ss ∨ p.Closed c.trustList) {b : Bool}
    (hb : (c.runStages p ss).result = .ok b) : (c.runStages p ss).program.Closed c.trustList :=
  runStages_establishes (fun _ _ _ h hs => runStage_closed htrust h hs) h hb

/-- **The world is closed after a run.** If elimination is among the stages, in
any place, and only trusted functions are stripped, then every call of a program
that a run has gone through leads nowhere that can be told, or to an intrinsic,
or to a trusted function, or to one that has a body. -/
theorem run_closed (hmem : .deleteUndefined ∈ c.stages)
    (htrust : ∀ name ∈ c.stripped, c.trustList.trusts name = true) {report : Report}
    (h : (c.run p).result = .ok report) :
    ∀ f ∈ (c.run p).program.functions, ∀ call ∈ f.calls,
      call.callee.callee? = none ∨
        ∃ name, call.callee.callee? = some name ∧
          (isIntrinsicName name = true ∨ c.trustList.trusts name = true ∨
            ∃ g, (c.run p).program.function? name = some g ∧ g.isDeclaration = false) := by
  obtain ⟨hpre, b, hs, hprogram⟩ := run_eq_ok h
  have hclosed := runStages_closed htrust (Or.inl hmem) hs
  intro f hf call hcall
  rw [hprogram] at hf ⊢
  cases hcallee : call.callee.callee? with
  | none => exact Or.inl rfl
  | some name => exact Or.inr ⟨name, rfl, hclosed f hf call hcall name hcallee⟩

/-- The lists that are used unless a configuration says otherwise fulfil the
condition on stripped functions. -/
example : ∀ name ∈ ({} : Config).stripped, ({} : Config).trustList.trusts name = true := by
  decide +kernel

/-- A program that defines its allocator and calls a function which nobody
defines. -/
def allocating : Program where
  functions := [
    { name := "fill", ret := .void },
    { name := "kzalloc", ret := .bytePtr, body := some [
      { label := "entry", instrs := [.ret (some (.const (.null .bytePtr)))] }] },
    { name := "main", ret := .int 32, body := some [
      { label := "entry", instrs := [
        .call ⟨some ⟨0⟩, .bytePtr, .func "kzalloc", []⟩,
        .call ⟨none, .void, .func "fill", [.reg ⟨0⟩]⟩,
        .ret none] }] }]

theorem run_closed_allocating :
    let c : Config := { trusted := ["kzalloc"], stripped := ["kzalloc"] }
    (∃ report, (c.run allocating).result = .ok report) ∧
      (c.run allocating).program.functions.flatMap Func.calls =
        [⟨some ⟨0⟩, .bytePtr, .func "kzalloc", []⟩] ∧
      ∀ f ∈ (c.run allocating).program.functions, ∀ call ∈ f.calls,
        call.callee.callee? = none ∨
          ∃ name, call.callee.callee? = some name ∧
            (isIntrinsicName name = true ∨ c.trustList.trusts name = true ∨
              ∃ g, (c.run allocating).program.function? name = some g ∧
                g.isDeclaration = false) := by
  intro c
  have hok : (c.run allocating).result.isOk = true := by decide +kernel
  have hcalls : (c.run allocating).program.functions.flatMap Func.calls =
      [⟨some ⟨0⟩, .bytePtr, .func "kzalloc", []⟩] := by decide +kernel
  cases h : (c.run allocating).result with
  | error e =>
      rw [h] at hok
      cases hok
  | ok report => exact ⟨⟨report, rfl⟩, hcalls, run_closed (by decide) (by decide) h⟩

end Config

end ClosedWorld

import ClosedWorld.Proofs.Removals

/-!
# The flag tells of a change

A report says whether the run modified the program. Nothing compares programs to
find that out. Elimination says so if its plan was not empty, preparation says so
always, and a run passes on what its stages say. Without preparation the flag is
exact all the same (`Config.run_modified_iff`).

One half is plain: where no call is doomed, elimination leaves every function as
it is. For the other half a planned removal has to show at the end. It does,
because the program has lost an instruction and no later stage adds one, so it is
the number of instructions that is carried through the stages.
-/

namespace ClosedWorld

namespace Program

theorem eliminate_of_spared {p : Program} {t : TrustList}
    (h : (p.functions.any fun f => f.calls.any (p.dooms t)) = false) : p.eliminate t = p := by
  have hspared : ∀ f ∈ p.functions, f.eliminate (p.dooms t) = f := by
    intro f hf
    refine Func.eliminate_of_spared fun call hcall => ?_
    have hcalls := List.any_eq_false.mp h f hf
    rw [Bool.not_eq_true] at hcalls
    exact (Bool.not_eq_true _).mp (List.any_eq_false.mp hcalls call hcall)
  rw [eliminate, (List.map_congr_left hspared).trans (List.map_id' p.functions)]

theorem instrCount_eliminate_lt {p : Program} {t : TrustList}
    (h : (p.functions.any fun f => f.calls.any (p.dooms t)) = true) :
    (p.eliminate t).instrCount < p.instrCount := by
  obtain ⟨f, hf, hcalls⟩ := List.any_eq_true.mp h
  obtain ⟨call, hcall, hd⟩ := List.any_eq_true.mp hcalls
  have hremoved : Diagnostic.removed f.name call ∈ p.functions.flatMap fun f =>
      (f.calls.filter (p.dooms t)).map (Diagnostic.removed f.name) :=
    List.mem_flatMap_of_mem hf (List.mem_map_of_mem (List.mem_filter.mpr ⟨hcall, hd⟩))
  have hpos := List.length_pos_of_mem hremoved
  have hcount := p.instrCount_eliminate t
  omega

end Program

namespace Config

variable {c : Config} {p : Program}

/-- What the flag of some stages tells of them and of the program before and
after: preparation was one of them or there are fewer instructions, or neither and
the program is the same. -/
def FlagTells (ss : List Stage) (p q : Program) : Bool → Prop
  | true => .prepare ∈ ss ∨ q.instrCount < p.instrCount
  | false => .prepare ∉ ss ∧ q = p

theorem runStage_flagTells {s : Stage} {b : Bool} (h : (c.runStage p s).result = .ok b) :
    FlagTells [s] p (c.runStage p s).program b := by
  cases s with
  | checkUnsupported =>
      obtain ⟨rfl, -⟩ := Program.checkUnsupported_eq_ok.mp h
      exact ⟨by decide, p.checkUnsupported_program c⟩
  | deleteUndefined =>
      have hprogram : (c.runStage p .deleteUndefined).program = p.eliminate c.trustList :=
        Program.deleteUndefined_program h
      have hflag := (Program.deleteUndefined_eq_ok.mp h).2
      rw [hprogram]
      cases b with
      | true => exact Or.inr (Program.instrCount_eliminate_lt hflag.symm)
      | false => exact ⟨by decide, Program.eliminate_of_spared hflag.symm⟩
  | prepare =>
      obtain ⟨rfl, -⟩ := Program.prepareEntry_eq_ok.mp h
      exact Or.inl List.mem_cons_self

theorem FlagTells.cons {s : Stage} {ss : List Stage} {q r : Program} {b₁ b₂ : Bool}
    (h₁ : FlagTells [s] p q b₁) (h₂ : FlagTells ss q r b₂) :
    FlagTells (s :: ss) p r (b₁ || b₂) := by
  cases b₁ with
  | false =>
      obtain ⟨hs, rfl⟩ := h₁
      cases b₂ with
      | false => exact ⟨fun hmem => (List.mem_cons.mp hmem).elim (by simpa using hs) h₂.1, h₂.2⟩
      | true => exact h₂.imp (List.mem_cons_of_mem s) id
  | true =>
      rcases h₁ with hs | hlt
      · exact Or.inl (List.mem_append_left ss hs)
      · cases b₂ with
        | false => exact Or.inr (h₂.2 ▸ hlt)
        | true => exact h₂.imp (List.mem_cons_of_mem s) fun hlt' => Nat.lt_trans hlt' hlt

theorem runStages_flagTells {ss : List Stage} {b : Bool} (h : (c.runStages p ss).result = .ok b) :
    FlagTells ss p (c.runStages p ss).program b := by
  induction ss generalizing p b with
  | nil =>
      cases h
      exact ⟨List.not_mem_nil, rfl⟩
  | cons s ss ih =>
      obtain ⟨b₁, b₂, hs, hrest, hprogram⟩ := runStages_cons_eq_ok h
      have hflag : b = (b₁ || b₂) := by
        rw [(runStages_cons_of_ok ss hs).2, hrest] at h
        cases h
        rfl
      rw [hprogram, hflag]
      exact (runStage_flagTells hs).cons (ih hrest)

/-- **The flag is exact up to preparation.** A run that succeeds says that it
modified the program if, and only if, preparation is configured or the program is
another one. So without preparation it says no exactly if the program has stayed
the same, and whenever it says no the program has. -/
theorem run_modified_iff {report : Report} (h : (c.run p).result = .ok report) :
    (report.modified = true ↔ .prepare ∈ c.stages ∨ (c.run p).program ≠ p) ∧
      (.prepare ∉ c.stages → (report.modified = false ↔ (c.run p).program = p)) ∧
      (report.modified = false → (c.run p).program = p) := by
  obtain ⟨hpre, b, hs, -, rfl⟩ := run_eq_ok_iff.mp h
  have htells := runStages_flagTells hs
  rw [(run_of_stages_ok hpre hs).1]
  cases b with
  | false =>
      obtain ⟨hno, hsame⟩ := htells
      simp [hno, hsame]
  | true =>
      have hchanged : .prepare ∈ c.stages ∨ (c.runStages p c.stages).program ≠ p :=
        htells.imp id fun hlt hsame => Nat.lt_irrefl _ (hsame ▸ hlt)
      refine ⟨iff_of_true rfl hchanged, fun hno => ?_, nofun⟩
      exact iff_of_false nofun (hchanged.resolve_left hno)

theorem run_modified_iff_spawning :
    let c : Config := { stages := [.deleteUndefined, .checkUnsupported] }
    let q := (c.run Program.spawning).program
    (∃ report, (c.run Program.spawning).result = .ok report ∧ report.modified = true) ∧
      q ≠ Program.spawning ∧
      (∃ report, (c.run q).result = .ok report ∧ report.modified = false) ∧
      (c.run q).program = q := by
  intro c q
  have hno : .prepare ∉ c.stages := by decide
  obtain ⟨report, hreport, hyes⟩ :
      ∃ report, (c.run Program.spawning).result = .ok report ∧ report.modified = true :=
    exists_of_map_toOption (by decide +kernel)
  obtain ⟨again, hagain, hnot⟩ :
      ∃ report, (c.run q).result = .ok report ∧ report.modified = false :=
    exists_of_map_toOption (by decide +kernel)
  refine ⟨⟨report, hreport, hyes⟩, ?_, ⟨again, hagain, hnot⟩, ?_⟩
  · exact ((run_modified_iff hreport).1.mp hyes).resolve_left hno
  · exact (run_modified_iff hagain).2.2 hnot

end Config

end ClosedWorld

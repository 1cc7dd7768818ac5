import ClosedWorld.Proofs.Rerun

/-!
# Eliminating and preparing commute

The two stages that change a program each look at what the other changes.
Preparation takes bodies away, and elimination removes the calls to functions
that have none; elimination rewrites bodies, and preparation drops some of them.
If the stripped functions are trusted, the order of the two makes no difference
to the program all the same (`Program.deleteUndefined_prepareEntry_comm`).

There are two sides to it. Which calls are doomed does not depend on the order,
because a function that has lost its body is a stripped one, and no call to a
trusted function is ever doomed. And in a single function the stages do not meet:
if it is stripped, nothing is left of what elimination did in it, and if it is
not, preparation leaves it alone.

Only errors tell the two orders apart, and only in one direction. The calls that
elimination looks at after preparation are among those that it would have looked
at before.
-/

namespace ClosedWorld

theorem Func.strippedIn_eliminate (doomed : Call → Bool) (names : List String) (f : Func) :
    (f.eliminate doomed).strippedIn names = (f.strippedIn names).eliminate doomed := by
  by_cases hmem : f.name ∈ names
  · have hstripped : f.strippedIn names = f.stripped := if_pos hmem
    rw [hstripped, eliminate_of_isDeclaration (f := f.stripped) rfl]
    exact if_pos hmem
  · have hkept : f.strippedIn names = f := if_neg hmem
    rw [hkept]
    exact if_neg hmem

namespace Program

section Trusted

variable {p : Program} {c : Config} (htrust : ∀ name ∈ c.stripped, c.trustList.trusts name = true)
include htrust

/-- Preparation takes bodies away, but only such as elimination does not ask for. -/
theorem dooms_prepared (plan : EntryPlan) :
    (p.prepared c plan).dooms c.trustList = p.dooms c.trustList := by
  funext call
  rw [dooms, dooms]
  cases call.callee.callee? with
  | none => rfl
  | some name =>
      by_cases hmem : name ∈ c.stripped
      · simp only [htrust name hmem, Bool.not_true, Bool.and_false, Bool.false_and]
      · simp only [function?_prepared_of_kept hmem]

theorem prepared_eliminate (plan : EntryPlan) :
    (p.eliminate c.trustList).prepared c plan = (p.prepared c plan).eliminate c.trustList := by
  rw [eliminate, eliminate, dooms_prepared htrust, prepared, prepared]
  simp only [List.map_map, Function.comp_def, Func.strippedIn_eliminate]

/-- What there is to look at after preparation was there before it. -/
theorem Eliminable.prepared (hp : p.Eliminable c.trustList) (plan : EntryPlan) :
    (p.prepared c plan).Eliminable c.trustList := by
  refine ⟨hp.resolved.prepared c plan, fun f' hf' call hcall hdoomed => ?_⟩
  obtain ⟨f, hf, rfl⟩ := List.mem_map.mp hf'
  rw [dooms_prepared htrust] at hdoomed
  exact hp.replaceable f hf call (Func.mem_calls_strippedIn hcall) hdoomed

/-- **Elimination and preparation commute.** Where only trusted functions are
stripped and the stages go through in the usual order, they go through in the
other order too, and leave the same program. -/
theorem deleteUndefined_prepareEntry_comm {b b' : Bool}
    (h : (p.deleteUndefined c).result = .ok b)
    (h' : ((p.deleteUndefined c).program.prepareEntry c).result = .ok b') :
    (∃ b₁, (p.prepareEntry c).result = .ok b₁) ∧
      (∃ b₂, ((p.prepareEntry c).program.deleteUndefined c).result = .ok b₂) ∧
      ((p.prepareEntry c).program.deleteUndefined c).program =
        ((p.deleteUndefined c).program.prepareEntry c).program := by
  have hp : p.Eliminable c.trustList := (deleteUndefined_eq_ok.mp h).1
  have heliminated := deleteUndefined_program h
  obtain ⟨-, plan, hplan⟩ := prepareEntry_eq_ok.mp h'
  have hplan' : p.entryPlan c = .ok plan := by
    rw [heliminated, entryPlan_eliminate] at hplan
    exact hplan
  obtain ⟨hfirst, hprepared⟩ := prepareEntry_of_ok hplan'
  have hsecond := deleteUndefined_eq_ok.mpr ⟨hp.prepared htrust plan, rfl⟩
  rw [hprepared]
  refine ⟨⟨true, hfirst⟩, ⟨_, hsecond⟩, ?_⟩
  rw [deleteUndefined_program hsecond, (prepareEntry_of_ok hplan).2, heliminated,
    prepared_eliminate htrust]

end Trusted

/-- A program whose allocator draws on a function that nobody defines, and whose
`main` uses both. -/
def pooling : Program where
  functions := [
    { name := "log", ret := .int 32 },
    { name := "kzalloc", ret := .bytePtr, body := some [
      { label := "entry", instrs := [
        .call ⟨none, .int 32, .func "log", []⟩,
        .ret (some (.const (.null .bytePtr)))] }] },
    { name := "main", ret := .int 32, body := some [
      { label := "entry", instrs := [
        .call ⟨some ⟨0⟩, .bytePtr, .func "kzalloc", []⟩,
        .call ⟨some ⟨1⟩, .int 32, .func "log", [.reg ⟨0⟩]⟩,
        .ret (some (.reg ⟨1⟩))] }] }]
  globals := [{ name := "pool", ty := .bytePtr }]

theorem deleteUndefined_prepareEntry_comm_pooling :
    let c : Config := {}
    (∀ name ∈ c.stripped, c.trustList.trusts name = true) ∧
      (pooling.deleteUndefined c).result = .ok true ∧
      ((pooling.deleteUndefined c).program.prepareEntry c).result = .ok true ∧
      ((pooling.prepareEntry c).program.deleteUndefined c).program =
        ((pooling.deleteUndefined c).program.prepareEntry c).program ∧
      ((pooling.prepareEntry c).program.deleteUndefined c).program.functions.map Func.body =
        [none, none, some [
          { label := "entry", instrs := [
            .call ⟨some ⟨0⟩, .bytePtr, .func "kzalloc", []⟩,
            .ret (some (.const (.int 32 0)))] }]] := by
  intro c
  have htrust : ∀ name ∈ c.stripped, c.trustList.trusts name = true := by decide +kernel
  have h : (pooling.deleteUndefined c).result = .ok true :=
    eq_ok_of_toOption (by decide +kernel)
  have h' : ((pooling.deleteUndefined c).program.prepareEntry c).result = .ok true :=
    eq_ok_of_toOption (by decide +kernel)
  obtain ⟨-, -, hsame⟩ := deleteUndefined_prepareEntry_comm htrust h h'
  exact ⟨htrust, h, h', hsame, by decide +kernel⟩

/-- The other way around there can be an error: elimination then looks into a
body that preparation would have dropped. -/
example :
    let c : Config := { trusted := ["seal"], stripped := ["seal"] }
    let p : Program := {
      functions := [
        { name := "sign", ret := .func .void [] false },
        { name := "seal", ret := .void, body := some [
          { label := "entry", instrs := [
            .call ⟨some ⟨0⟩, .func .void [] false, .func "sign", []⟩,
            .ret none] }] },
        { name := "main", ret := .void }] }
    ((p.prepareEntry c).program.deleteUndefined c).result.isOk = true ∧
      (p.deleteUndefined c).result.isOk = false := by decide +kernel

end Program

end ClosedWorld

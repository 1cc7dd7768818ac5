import ClosedWorld.Proofs.Accounting
import ClosedWorld.Proofs.Rerun
import ClosedWorld.Proofs.Resolution

/-!
# What is removed, and where the rest stands

Elimination reports, replaces and removes in three separate loops, the last of
them back to front and by position. This file compares the three. The reports are
the doomed calls, one for one and in reading order, and for each function there
are as many as it has lost instructions
(`Program.deleteUndefined_reports_removals`).

The calls that stay keep their order, their function and the label of their
block, and each moves up by the number of doomed calls that stood ahead of it in
its block. So a scan for unsupported calls finds after elimination what it found
before, without the calls that are gone and with the positions moved
(`Program.unsupportedCalls_deleteUndefined`). Labels need not be unique, so a
position means something only together with the block it is counted in, and the
calls are compared block by block.
-/

namespace ClosedWorld

/-! ## Reports -/

/-- What elimination reports of a call. -/
def CallSite.removed? (p : Program) (t : TrustList) (s : CallSite) : Option Diagnostic :=
  if p.dooms t s.call then
    s.call.callee.callee?.map fun callee =>
      { kind := .removedCall, symbol := callee, caller := some s.caller }
  else none

namespace Program

theorem exists_callee_of_dooms {p : Program} {t : TrustList} {call : Call}
    (h : p.dooms t call = true) : ∃ name, call.callee.callee? = some name := by
  rw [dooms] at h
  cases hname : call.callee.callee? with
  | none => rw [hname] at h; cases h
  | some name => exact ⟨name, rfl⟩

theorem removed?_eq (p : Program) (t : TrustList) (s : CallSite) :
    s.removed? p t =
      if p.dooms t s.call then some (Diagnostic.removed s.caller s.call) else none := by
  rw [CallSite.removed?]
  split
  next hd =>
      obtain ⟨name, hname⟩ := exists_callee_of_dooms hd
      rw [hname, Diagnostic.removed, hname]
      rfl
  next => rfl

theorem deleteUndefined_diagnostics_eq {p : Program} {c : Config} {b : Bool}
    (h : (p.deleteUndefined c).result = .ok b) :
    (p.deleteUndefined c).diagnostics = p.callSites.filterMap (·.removed? p c.trustList) := by
  have hfunction : ∀ f : Func, (f.calls.filter (p.dooms c.trustList)).map (Diagnostic.removed f.name) =
      f.calls.filterMap fun call =>
        if p.dooms c.trustList call then some (Diagnostic.removed f.name call) else none := by
    intro f
    rw [← List.filterMap_eq_map, List.filterMap_filter]
    rfl
  have hflat : p.callSites.filterMap (·.removed? p c.trustList) =
      (p.callSites.map fun s => (s.caller, s.call)).filterMap fun x =>
        if p.dooms c.trustList x.2 then some (Diagnostic.removed x.1 x.2) else none := by
    rw [List.filterMap_map]
    congr 1
    funext s
    exact p.removed?_eq c.trustList s
  rw [deleteUndefined_diagnostics h, hflat, map_callSites, List.filterMap_flatMap]
  simp only [hfunction, List.filterMap_map, Function.comp_def]

theorem length_removed (p : Program) (t : TrustList) :
    (p.callSites.filterMap (·.removed? p t)).length = p.callSites.countP (p.dooms t ·.call) := by
  simp only [List.length_filterMap_eq_countP, removed?_eq]
  refine List.countP_congr fun s _ => ?_
  cases p.dooms t s.call <;> simp

theorem instrCount_eliminate (p : Program) (t : TrustList) :
    (p.eliminate t).instrCount +
      (p.functions.flatMap fun f =>
        (f.calls.filter (p.dooms t)).map (Diagnostic.removed f.name)).length = p.instrCount := by
  rw [instrCount, instrCount, eliminate, List.flatMap_map]
  induction p.functions with
  | nil => rfl
  | cons f fs ih =>
      have hfirst := f.length_instrs_eliminate (p.dooms t)
      simp only [List.flatMap_cons, List.length_append, List.length_map]
      omega

theorem countP_removals {p : Program} (hp : p.Keyed) (doomed : Call → Bool) {f : Func}
    (hf : f ∈ p.functions) :
    (p.functions.flatMap fun g =>
      (g.calls.filter doomed).map (Diagnostic.removed g.name)).countP
        (·.caller == some f.name) = (f.calls.filter doomed).length := by
  have hcaller : ∀ g : Func, ((g.calls.filter doomed).map (Diagnostic.removed g.name)).countP
      (·.caller == some f.name) =
        if g.name = f.name then (g.calls.filter doomed).length else 0 := by
    intro g
    rw [List.countP_map]
    split
    next hname =>
        refine List.countP_eq_length.mpr fun call _ => ?_
        exact beq_iff_eq.mpr (congrArg some hname)
    next hname =>
        refine List.countP_eq_zero.mpr fun call _ heq => hname ?_
        exact Option.some.inj (beq_iff_eq.mp heq)
  rw [countP_flatMap_of_nodup hp.1 hf fun g hname => by rw [hcaller, if_neg hname], hcaller,
    if_pos rfl]

/-- **Elimination reports what it removes.** There is one report for each doomed
call, with the function it leads to and the function it stands in, in reading
order. The program has lost as many instructions as there are reports, and so has
each of its functions. -/
theorem deleteUndefined_reports_removals {p : Program} {c : Config} {b : Bool} (hp : p.Keyed)
    (h : (p.deleteUndefined c).result = .ok b) :
    (p.deleteUndefined c).diagnostics = p.callSites.filterMap (·.removed? p c.trustList) ∧
      (p.deleteUndefined c).diagnostics.length =
        p.callSites.countP (fun s => p.dooms c.trustList s.call) ∧
      (p.deleteUndefined c).program.instrCount + (p.deleteUndefined c).diagnostics.length =
        p.instrCount ∧
      ∀ f ∈ p.functions, ∃ f', (p.deleteUndefined c).program.function? f.name = some f' ∧
        f'.instrs.length + (p.deleteUndefined c).diagnostics.countP (·.caller == some f.name) =
          f.instrs.length := by
  have hdiagnostics := deleteUndefined_diagnostics_eq h
  have hprogram := deleteUndefined_program h
  refine ⟨hdiagnostics, ?_, ?_, fun f hf => ?_⟩
  · rw [hdiagnostics, length_removed]
  · rw [hprogram, deleteUndefined_diagnostics h]
    exact p.instrCount_eliminate c.trustList
  · refine ⟨f.eliminate (p.dooms c.trustList), ?_, ?_⟩
    · rw [hprogram, function?_eliminate, hp.function?_eq_some_iff.mpr ⟨hf, rfl⟩, Option.map_some]
    · rw [deleteUndefined_diagnostics h, countP_removals hp _ hf, f.length_instrs_eliminate]

/-- A program with two blocks of one label, calls to two undefined functions, and
calls to a defined one ahead of them, between them and behind them. -/
def spawning : Program where
  functions := [
    { name := "log", ret := .int 32 },
    { name := "fork", ret := .int 32 },
    { name := "spawn", ret := .int 32, body := some [
      { label := "entry", instrs := [
        .call ⟨some ⟨0⟩, .int 32, .func "fork", []⟩,
        .ret (some (.reg ⟨0⟩))] }] },
    { name := "main", ret := .int 32, body := some [
      { label := "work", instrs := [
        .call ⟨none, .int 32, .func "spawn", []⟩,
        .call ⟨some ⟨0⟩, .int 32, .func "log", []⟩,
        .call ⟨none, .int 32, .cast (.func "fork") .bytePtr, [.reg ⟨0⟩]⟩,
        .call ⟨none, .int 32, .func "spawn", [.reg ⟨0⟩]⟩] },
      { label := "work", instrs := [
        .call ⟨none, .int 32, .func "log", []⟩,
        .call ⟨some ⟨1⟩, .int 32, .cast (.func "spawn") .bytePtr, []⟩,
        .ret (some (.reg ⟨1⟩))] }] }]

theorem deleteUndefined_reports_removals_spawning :
    let removed (callee caller : String) : Diagnostic :=
      { kind := .removedCall, symbol := callee, caller := some caller }
    spawning.Keyed ∧ (spawning.deleteUndefined {}).result = .ok true ∧
      (spawning.deleteUndefined {}).diagnostics =
        [removed "fork" "spawn", removed "log" "main", removed "fork" "main",
          removed "log" "main"] ∧
      (spawning.deleteUndefined {}).program.instrCount + 4 = spawning.instrCount ∧
      ∃ f, (spawning.deleteUndefined {}).program.function? "main" = some f ∧
        f.instrs.length + 3 = 7 := by
  intro removed
  have hkeyed : spawning.Keyed := by decide
  have hok : (spawning.deleteUndefined {}).result = .ok true :=
    eq_ok_of_toOption (by decide +kernel)
  obtain ⟨hreports, -, hcount, hfunctions⟩ := deleteUndefined_reports_removals hkeyed hok
  have hlist : (spawning.deleteUndefined {}).diagnostics =
      [removed "fork" "spawn", removed "log" "main", removed "fork" "main",
        removed "log" "main"] := by
    rw [hreports]
    decide +kernel
  obtain ⟨f, hf, hlength⟩ := hfunctions _
    (List.mem_cons_of_mem _ (List.mem_cons_of_mem _ (List.mem_cons_of_mem _ List.mem_cons_self)))
  rw [hlist] at hcount hlength
  exact ⟨hkeyed, hok, hlist, hcount, f, hf, hlength⟩

end Program

/-! ## Positions -/

/-- A member of a list that is kept moves up by the number of those ahead of it
that are not. -/
theorem zipIdx_filter_not {α : Type} (test : α → Bool) (as : List α) :
    (as.filter fun a => !test a).zipIdx =
      (as.zipIdx.filter fun x => !test x.1).map fun x =>
        (x.1, x.2 - (as.take x.2).countP test) := by
  induction as with
  | nil => rfl
  | cons a as ih =>
      have hle : ∀ i, (as.take i).countP test ≤ i := fun i =>
        Nat.le_trans List.countP_le_length (List.length_take_le i as)
      rw [List.zipIdx_cons, List.zipIdx_succ]
      cases ha : test a with
      | true =>
          rw [List.filter_cons_of_neg (by simp [ha]), List.filter_cons_of_neg (by simp [ha]), ih,
            List.filter_map, List.map_map]
          refine List.map_congr_left fun x _ => ?_
          simp only [Function.comp_apply, List.take_succ_cons, List.countP_cons, ha, if_true]
          congr 1
          omega
      | false =>
          rw [List.filter_cons_of_pos (by simp [ha]), List.filter_cons_of_pos (by simp [ha]),
            List.zipIdx_cons, List.zipIdx_succ, ih, List.filter_map, List.map_cons, List.map_map,
            List.map_map]
          refine congrArg ((a, 0) :: ·) (List.map_congr_left fun x _ => ?_)
          have := hle x.2
          simp only [Function.comp_apply, List.take_succ_cons, List.countP_cons, ha,
            Bool.false_eq_true, if_false]
          congr 1
          omega

/-- The number of doomed calls ahead of a position. -/
def Block.doomedBefore (doomed : Call → Bool) (b : Block) (index : Nat) : Nat :=
  (b.instrs.take index).countP fun i => i.call?.any doomed

/-- The calls of a block after some have been dropped and the operands of the others
have changed. -/
theorem Block.callSites_dropCalls (doomed : Call → Bool) (g : Operand → Operand) (caller : String)
    (b : Block) :
    ((b.dropCalls doomed).mapInstrs (·.mapOperands g)).callSites caller =
      ((b.callSites caller).filter fun s => !doomed s.call).map fun s =>
        { s with index := s.index - b.doomedBefore doomed s.index, call := s.call.mapOperands g } := by
  rw [callSites, callSites, ← List.filterMap_eq_map, List.filterMap_filter, List.filterMap_filterMap]
  simp only [mapInstrs, dropCalls, ClosedWorld.dropCalls]
  rw [List.zipIdx_map, zipIdx_filter_not, List.map_map, List.filterMap_map, List.filterMap_filter]
  congr 1
  funext x
  obtain ⟨i, index⟩ := x
  simp only [Function.comp_apply, Prod.map_apply, Instr.call?_mapOperands, id_eq]
  cases hcall : i.call? with
  | none => rfl
  | some call => cases hd : doomed call <;> simp [hd, doomedBefore]

/-! ## Unsupported calls -/

/-- The unsupported calls of a block. -/
def Block.unsupported (names : List String) (caller : String) (b : Block) : List UnsupportedCall :=
  (b.callSites caller).filterMap (·.unsupported? names)

/-- The callee has no body and is not trusted to exist. -/
def UnsupportedCall.isUndefined (p : Program) (t : TrustList) (u : UnsupportedCall) : Bool :=
  (p.function? u.callee).any Func.isDeclaration && !t.trusts u.callee

theorem CallSite.dooms_of_unsupported? {p : Program} {t : TrustList} {names : List String}
    {s : CallSite} {u : UnsupportedCall} (h : s.unsupported? names = some u) :
    p.dooms t s.call = u.isUndefined p t := by
  obtain ⟨name, hname, -, hintrinsic, rfl⟩ := unsupported?_eq_some_iff.mp h
  rw [Program.dooms, Operand.callee?_eq_some_iff.mpr hname, UnsupportedCall.isUndefined]
  simp only [hintrinsic, Bool.not_false, Bool.true_and, Bool.and_comm]

theorem Block.unsupported_dropCalls (p : Program) (t : TrustList) (σ : Reg → Option Constant)
    (names : List String) (caller : String) (b : Block) :
    ((b.dropCalls (p.dooms t)).mapInstrs (·.mapOperands (·.substitute σ))).unsupported names caller =
      ((b.unsupported names caller).filter fun u => !u.isUndefined p t).map fun u =>
        { u with index := u.index - b.doomedBefore (p.dooms t) u.index } := by
  rw [unsupported, unsupported, callSites_dropCalls, ← List.filterMap_eq_map, List.filterMap_filter,
    List.filterMap_filterMap, ← List.filterMap_eq_map, List.filterMap_filter,
    List.filterMap_filterMap]
  congr 1
  funext s
  have hmoved : ∀ index, CallSite.unsupported? names
      { s with index, call := s.call.mapOperands (·.substitute σ) } =
        (s.unsupported? names).map fun u => { u with index } := by
    intro index
    rw [CallSite.unsupported?, Call.mapOperands, Operand.callee?_substitute, CallSite.unsupported?,
      Option.map_map]
    rfl
  have hindex : ∀ u, s.unsupported? names = some u → u.index = s.index := by
    intro u hu
    obtain ⟨-, -, -, -, rfl⟩ := CallSite.unsupported?_eq_some_iff.mp hu
    rfl
  cases hu : s.unsupported? names with
  | none => cases p.dooms t s.call <;> simp [hmoved, hu]
  | some u =>
      cases hd : p.dooms t s.call <;>
        simp [hd, hmoved, hu, ← CallSite.dooms_of_unsupported? hu, hindex u hu]

namespace Program

/-- The unsupported calls, each with the block that it stands in. -/
def unsupportedIn (p : Program) (names : List String) : List (Block × UnsupportedCall) :=
  p.functions.flatMap fun f => f.blocks.flatMap fun b => (b.unsupported names f.name).map (b, ·)

theorem filterMap_callSites (p : Program) (names : List String) :
    p.callSites.filterMap (·.unsupported? names) =
      p.functions.flatMap fun f => f.blocks.flatMap fun b => b.unsupported names f.name := by
  simp only [callSites, Func.callSites, List.filterMap_flatMap]
  rfl

/-- A call found in a block stands in this block. -/
theorem of_mem_unsupportedIn {p : Program} {names : List String} {x : Block × UnsupportedCall}
    (h : x ∈ p.unsupportedIn names) :
    ∃ f ∈ p.functions, x.1 ∈ f.blocks ∧ x.2.caller = f.name ∧ x.2.block = x.1.label ∧
      ∃ call, x.1.instrs[x.2.index]? = some (.call call) ∧
        call.callee.callee? = some x.2.callee := by
  obtain ⟨f, hf, h⟩ := List.mem_flatMap.mp h
  obtain ⟨b, hb, h⟩ := List.mem_flatMap.mp h
  obtain ⟨u, hu, rfl⟩ := List.mem_map.mp h
  obtain ⟨s, hs, hu⟩ := List.mem_filterMap.mp hu
  obtain ⟨hcaller, hlabel, hi⟩ := Block.mem_callSites_iff.mp hs
  obtain ⟨name, hname, -, -, rfl⟩ := CallSite.unsupported?_eq_some_iff.mp hu
  exact ⟨f, hf, hb, hcaller, hlabel, s.call, hi, Operand.callee?_eq_some_iff.mpr hname⟩

/-- **Elimination and the scan for unsupported calls agree on the calls.** Where
elimination goes through, so does the scan before it and after it. After it, the
scan finds what it found before without the calls to undefined functions, in the
same order and with the same functions, labels and callees; each position is
lower by the number of doomed calls that stood ahead of it in its block, and the
block listed with a call is the one that it stands in. -/
theorem unsupportedCalls_deleteUndefined {p : Program} {c : Config} {b : Bool}
    (h : (p.deleteUndefined c).result = .ok b) (names : List String) :
    p.unsupportedCalls names = .ok ((p.unsupportedIn names).map Prod.snd) ∧
      (p.deleteUndefined c).program.unsupportedCalls names =
        .ok (((p.unsupportedIn names).filter fun x => !x.2.isUndefined p c.trustList).map fun x =>
          { x.2 with
            index := x.2.index - x.1.doomedBefore (p.dooms c.trustList) x.2.index }) ∧
      ∀ x ∈ p.unsupportedIn names, ∃ f ∈ p.functions, x.1 ∈ f.blocks ∧ x.2.caller = f.name ∧
        x.2.block = x.1.label ∧ ∃ call, x.1.instrs[x.2.index]? = some (.call call) ∧
          call.callee.callee? = some x.2.callee := by
  have hp : p.Resolved := (deleteUndefined_eq_ok.mp h).1.resolved
  rw [deleteUndefined_program h, hp.unsupportedCalls, (hp.eliminate c.trustList).unsupportedCalls,
    filterMap_callSites, filterMap_callSites]
  refine ⟨?_, ?_, fun x hx => of_mem_unsupportedIn hx⟩
  · simp only [unsupportedIn, List.map_flatMap, List.map_map, Function.comp_def, List.map_id']
  · simp only [unsupportedIn, List.filter_flatMap, List.map_flatMap, List.filter_map, List.map_map,
      Function.comp_def, eliminate, List.flatMap_map, Func.blocks_eliminate,
      Block.unsupported_dropCalls]
    rfl

theorem unsupportedCalls_deleteUndefined_spawning :
    let site (caller block : String) (index : Nat) (callee : String) : UnsupportedCall :=
      { caller, block, index, callee }
    (spawning.deleteUndefined {}).result = .ok true ∧
      spawning.unsupportedCalls ["fork", "spawn"] =
        .ok [site "spawn" "entry" 0 "fork", site "main" "work" 0 "spawn",
          site "main" "work" 2 "fork", site "main" "work" 3 "spawn",
          site "main" "work" 1 "spawn"] ∧
      (spawning.deleteUndefined {}).program.unsupportedCalls ["fork", "spawn"] =
        .ok [site "main" "work" 0 "spawn", site "main" "work" 1 "spawn",
          site "main" "work" 0 "spawn"] := by
  intro site
  have hok : (spawning.deleteUndefined {}).result = .ok true :=
    eq_ok_of_toOption (by decide +kernel)
  obtain ⟨hbefore, hafter, -⟩ := unsupportedCalls_deleteUndefined hok ["fork", "spawn"]
  refine ⟨hok, ?_, ?_⟩
  · rw [hbefore]
    exact congrArg Except.ok (by decide +kernel)
  · rw [hafter]
    exact congrArg Except.ok (by decide +kernel)

end Program

end ClosedWorld

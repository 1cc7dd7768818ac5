import ClosedWorld.Proofs.Substitution
import ClosedWorld.Stage.UndefinedCalls

/-!
# Removing by position removes what was planned

A removal names its call by two positions, and positions shift when something
ahead of them goes. This file shows that nothing shifts under the removals of
one plan, because they are carried out from the last to the first: what is left
is the body without the calls that the plan singled out (`Func.erase_placed`).

The argument is the same at both levels, the blocks of a body and the
instructions of a block. Behind the first element every position is one greater
than it would be without that element, and an operation at a position one
greater leaves the first element alone. So the removals further back can be
carried out on the rest of the list, and the removal at the front, if there is
one, comes last.

The body that is erased from need not be the body that was planned on. Any
change of instructions in place, one for one, may have happened in between.
-/

namespace ClosedWorld

/-- Operations behind the first element leave it alone. -/
theorem foldr_map_shift {σ α : Type} (op : σ → List α → List α) (shift : σ → σ)
    (hshift : ∀ s x l, op (shift s) (x :: l) = x :: op s l) (ss : List σ) (x : α) (l : List α) :
    (ss.map shift).foldr op (x :: l) = x :: ss.foldr op l := by
  induction ss with
  | nil => rfl
  | cons s ss ih => rw [List.map_cons, List.foldr_cons, ih, hshift, List.foldr_cons]

/-! ## One block -/

/-- The calls of a list of instructions, in a block at a position, counted from
`start` on. -/
def placedFrom (block start : Nat) (instrs : List Instr) : List PlacedCall :=
  (instrs.zipIdx start).filterMap fun (i, index) =>
    i.call?.map fun call => { block, index, call }

theorem placedFrom_succ (block start : Nat) (instrs : List Instr) :
    placedFrom block (start + 1) instrs =
      (placedFrom block start instrs).map fun s => { s with index := s.index + 1 } := by
  rw [placedFrom, List.zipIdx_succ, List.filterMap_map, placedFrom, List.map_filterMap]
  congr 1
  funext ⟨i, index⟩
  simp only [Function.comp, Option.map_map]
  rfl

theorem placedFrom_cons (block : Nat) (i : Instr) (instrs : List Instr) :
    placedFrom block 0 (i :: instrs) =
      (i.call?.map fun call => { block, index := 0, call }).toList ++
        (placedFrom block 0 instrs).map fun s => { s with index := s.index + 1 } := by
  rw [← placedFrom_succ, placedFrom, List.zipIdx_cons, List.filterMap_cons]
  dsimp only
  cases i.call? <;> rfl

/-- The body without the calls that satisfy a test. -/
def dropCalls (test : Call → Bool) (instrs : List Instr) : List Instr :=
  instrs.filter fun i => !i.call?.any test

theorem foldr_eraseIdx_placedFrom (test : Call → Bool) (g : Instr → Instr) (block : Nat)
    (instrs : List Instr) :
    ((placedFrom block 0 instrs).filter (test ·.call)).foldr
        (fun s acc => acc.eraseIdx s.index) (instrs.map g) =
      (dropCalls test instrs).map g := by
  induction instrs with
  | nil => rfl
  | cons i instrs ih =>
      rw [placedFrom_cons, List.filter_append, List.foldr_append, List.filter_map]
      rw [List.map_cons, foldr_map_shift _ _ fun _ _ _ => rfl]
      simp only [Function.comp_def]
      rw [ih, dropCalls, dropCalls, List.filter_cons]
      cases i.call? with
      | none => rfl
      | some c =>
          cases hc : test c with
          | true => simp [hc]
          | false => simp [hc]

/-- Removes from a block the calls that satisfy a test. -/
def Block.dropCalls (test : Call → Bool) (b : Block) : Block :=
  { b with instrs := ClosedWorld.dropCalls test b.instrs }

theorem Block.foldr_erase_instrs (ss : List PlacedCall) (b : Block) :
    ss.foldr (fun s acc => acc.erase s.index) b =
      { b with instrs := ss.foldr (fun s acc => acc.eraseIdx s.index) b.instrs } := by
  induction ss with
  | nil => rfl
  | cons s ss ih => rw [List.foldr_cons, ih, List.foldr_cons, Block.erase]

theorem Block.foldr_erase_placed (test : Call → Bool) (g : Instr → Instr) (block : Nat)
    (b : Block) :
    ((b.placedCalls block).filter (test ·.call)).foldr (fun s acc => acc.erase s.index)
        (b.mapInstrs g) =
      (b.dropCalls test).mapInstrs g := by
  rw [foldr_erase_instrs, mapInstrs, placedCalls]
  exact congrArg (Block.mk b.label) (foldr_eraseIdx_placedFrom test g block b.instrs)

/-! ## All blocks -/

theorem Block.placedCalls_succ (b : Block) (block : Nat) :
    b.placedCalls (block + 1) =
      (b.placedCalls block).map fun s => { s with block := s.block + 1 } := by
  rw [placedCalls, placedCalls, List.map_filterMap]
  congr 1
  funext ⟨i, index⟩
  simp only [Option.map_map]
  rfl

theorem Block.block_placedCalls {b : Block} {block : Nat} {s : PlacedCall}
    (hs : s ∈ b.placedCalls block) : s.block = block := by
  rw [placedCalls, List.mem_filterMap] at hs
  obtain ⟨⟨i, index⟩, -, hs⟩ := hs
  obtain ⟨call, -, rfl⟩ := Option.map_eq_some_iff.mp hs
  rfl

/-- The calls of a list of blocks, counted from `start` on. -/
def placedBlocks (start : Nat) (blocks : List Block) : List PlacedCall :=
  (blocks.zipIdx start).flatMap fun (b, block) => b.placedCalls block

theorem placedBlocks_succ (start : Nat) (blocks : List Block) :
    placedBlocks (start + 1) blocks =
      (placedBlocks start blocks).map fun s => { s with block := s.block + 1 } := by
  rw [placedBlocks, List.zipIdx_succ, List.flatMap_map, placedBlocks, List.map_flatMap]
  congr 1
  funext ⟨b, block⟩
  exact b.placedCalls_succ block

theorem placedBlocks_cons (b : Block) (blocks : List Block) :
    placedBlocks 0 (b :: blocks) =
      b.placedCalls 0 ++ (placedBlocks 0 blocks).map fun s => { s with block := s.block + 1 } := by
  rw [← placedBlocks_succ, placedBlocks, List.zipIdx_cons, List.flatMap_cons]
  rfl

/-- Removals in the first block leave the others alone. -/
theorem foldr_erase_head {ss : List PlacedCall} (hss : ∀ s ∈ ss, s.block = 0) (b : Block)
    (blocks : List Block) :
    ss.foldr (fun s bs => bs.modify s.block (·.erase s.index)) (b :: blocks) =
      ss.foldr (fun s acc => acc.erase s.index) b :: blocks := by
  induction ss with
  | nil => rfl
  | cons s ss ih =>
      rw [List.foldr_cons, ih fun s' hs' => hss s' (List.mem_cons_of_mem s hs'),
        hss s List.mem_cons_self, List.modify_zero_cons, List.foldr_cons]

theorem foldr_erase_placedBlocks (test : Call → Bool) (g : Instr → Instr) (blocks : List Block) :
    ((placedBlocks 0 blocks).filter (test ·.call)).foldr
        (fun s bs => bs.modify s.block (·.erase s.index)) (blocks.map (Block.mapInstrs g)) =
      blocks.map fun b => (b.dropCalls test).mapInstrs g := by
  induction blocks with
  | nil => rfl
  | cons b blocks ih =>
      rw [placedBlocks_cons, List.filter_append, List.foldr_append, List.filter_map]
      rw [List.map_cons, foldr_map_shift (fun (s : PlacedCall) (bs : List Block) =>
        bs.modify s.block (·.erase s.index)) _ fun _ _ _ => List.modify_succ_cons ..]
      simp only [Function.comp_def]
      rw [ih, foldr_erase_head fun s hs => Block.block_placedCalls (List.mem_filter.mp hs).1,
        Block.foldr_erase_placed, List.map_cons]

/-! ## A function -/

namespace Func

/-- Removes from the body the calls that satisfy a test. -/
def dropCalls (test : Call → Bool) (f : Func) : Func :=
  { f with body := f.body.map fun blocks => blocks.map (Block.dropCalls test) }

@[simp] theorem instrs_dropCalls (f : Func) (test : Call → Bool) :
    (f.dropCalls test).instrs = ClosedWorld.dropCalls test f.instrs := by
  cases f with
  | mk name ret params variadic linkage body =>
      cases body with
      | none => rfl
      | some blocks =>
          show (blocks.map (Block.dropCalls test)).flatMap Block.instrs =
            (blocks.flatMap Block.instrs).filter _
          rw [List.flatMap_map, List.filter_flatMap]
          rfl

theorem dropCalls_none (f : Func) : f.dropCalls (fun _ => false) = f := by
  have hblock : Block.dropCalls (fun _ => false) = id := by
    funext b
    have hall : ClosedWorld.dropCalls (fun _ => false) b.instrs = b.instrs :=
      List.filter_eq_self.mpr fun i _ => by cases i.call? <;> rfl
    rw [Block.dropCalls, hall]
    rfl
  rw [dropCalls, hblock]
  simp only [List.map_id, Option.map_id']

theorem dropCalls_dropCalls (f : Func) (test test' : Call → Bool) :
    (f.dropCalls test).dropCalls test' = f.dropCalls fun c => test c || test' c := by
  have hblock : ∀ b : Block, (b.dropCalls test).dropCalls test' =
      b.dropCalls fun c => test c || test' c := by
    intro b
    simp only [Block.dropCalls, ClosedWorld.dropCalls, List.filter_filter]
    congr 2
    funext i
    cases i.call? with
    | none => rfl
    | some c => simp only [Option.any_some, Bool.not_or, Bool.and_comm]
  simp only [dropCalls, Option.map_map, Function.comp_def, List.map_map, hblock]

/-- Which calls go can be asked before their operands change. -/
theorem dropCalls_mapInstrs (f : Func) (test : Call → Bool) (g : Operand → Operand) :
    (f.mapInstrs (·.mapOperands g)).dropCalls test =
      (f.dropCalls fun c => test (c.mapOperands g)).mapInstrs (·.mapOperands g) := by
  have hblock : ∀ b : Block, (b.mapInstrs (·.mapOperands g)).dropCalls test =
      (b.dropCalls fun c => test (c.mapOperands g)).mapInstrs (·.mapOperands g) := by
    intro b
    simp only [Block.dropCalls, Block.mapInstrs, ClosedWorld.dropCalls, List.filter_map,
      Function.comp_def, Instr.call?_mapOperands, Option.any_map]
  simp only [dropCalls, mapInstrs, Option.map_map, Function.comp_def, List.map_map, hblock]

theorem placedCalls_eq (f : Func) : f.placedCalls = placedBlocks 0 f.blocks := rfl

/-- Removing planned calls by position, last one first, drops exactly them, also
when the instructions have changed in place since the plan was made. -/
theorem erase_placed {removals : List Removal} {place : PlacedCall → Removal}
    (hblock : ∀ s, (place s).block = s.block) (hindex : ∀ s, (place s).index = s.index)
    (f : Func) (test : Call → Bool) (g : Instr → Instr)
    (hr : removals = (f.placedCalls.filter (test ·.call)).map place) :
    (f.mapInstrs g).erase removals = (f.dropCalls test).mapInstrs g := by
  cases f with
  | mk name ret params variadic linkage body =>
      cases body with
      | none => rfl
      | some blocks =>
          have h := foldr_erase_placedBlocks test g blocks
          rw [placedCalls_eq] at hr
          simp only [erase, mapInstrs, dropCalls, Option.map_some, hr, List.foldr_map, hblock,
            hindex, List.map_map]
          exact congrArg (fun bs => Func.mk name ret params variadic linkage (some bs)) h

end Func

end ClosedWorld

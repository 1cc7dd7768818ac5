import ClosedWorld.Proofs.Frame

/-!
# Counting uses and replacing them

To count the uses of a register is to look under the casts of every operand. To
replace them is to go down the casts of every operand and build them up again. The
two walks are written apart, and here they are shown to agree: what is replaced is
what is counted, and the register has no use left unless the new value reads it.

Both come down to one fact about a single operand (`Operand.replace_eq`). If the
register is its core, the new value goes there under the same casts, which counts
one; if not, nothing happens. A new value that reads a register itself adds as many
uses of that register as it is put in.
-/

namespace ClosedWorld

/-! ## Operands -/

namespace Operand

/-- The types that the operand is cast to, the outermost first. -/
def casts : Operand → List Ty
  | .cast value ty => ty :: value.casts
  | _ => []

/-- The operand under casts to some types, the outermost first. -/
def under (v : Operand) : List Ty → Operand
  | [] => v
  | ty :: tys => .cast (v.under tys) ty

@[simp] theorem core_under (v : Operand) (tys : List Ty) : (v.under tys).core = v.core := by
  induction tys with
  | nil => rfl
  | cons ty tys ih => exact ih

theorem uses_iff {v : Operand} {r : Reg} : v.uses r = true ↔ v.core = .reg r := by
  rw [uses, beq_iff_eq, reg?]
  cases v.core <;> simp

/-- An operand reads one register at most. -/
theorem uses_eq_false {v : Operand} {q r : Reg} (h : v.uses r = true) (hne : q ≠ r) :
    v.uses q = false := by
  rw [Bool.eq_false_iff, Ne, uses_iff, uses_iff.mp h]
  exact fun hqr => hne (Operand.reg.inj hqr).symm

/-- A replacement puts the new value in the place of the core, or does nothing. -/
theorem replace_eq (v : Operand) (r : Reg) (new : Operand) :
    v.replace r new = if v.uses r = true then (new.under v.casts, 1) else (v, 0) := by
  induction v with
  | cast value ty ih =>
      have huses : (cast value ty).uses r = value.uses r := rfl
      simp only [replace, ih, huses, casts, under]
      split <;> rfl
  | reg q =>
      have huses : (reg q).uses r = true ↔ q = r := by simp [uses_iff, core]
      simp only [replace, huses, casts, under]
  | func | global | arg | const | asm => rfl

theorem uses_replace (v : Operand) (r : Reg) (new : Operand) (q : Reg) :
    (v.replace r new).1.uses q = if v.uses r = true then new.uses q else v.uses q := by
  rw [replace_eq]
  split
  · rw [uses, uses, reg?, reg?, core_under]
  · rfl

/-- `v'` is `v` with `new` for register `r`: under the same casts if `r` is the core
of `v`, and else not at all. -/
structure Replaced (v : Operand) (r : Reg) (new v' : Operand) : Prop where
  read : v.core = .reg r → v' = new.under v.casts
  unread : v.core ≠ .reg r → v' = v

theorem replaced_replace (v : Operand) (r : Reg) (new : Operand) :
    v.Replaced r new (v.replace r new).1 := by
  rw [replace_eq]
  refine ⟨fun hread => ?_, fun hunread => ?_⟩
  · rw [if_pos (uses_iff.mpr hread)]
  · rw [if_neg (mt uses_iff.mp hunread)]

/-- The uses of a register after a replacement are those before, unless it is the one
that is replaced, and those that the new value brings. -/
theorem countP_uses_replace (vs : List Operand) (r : Reg) (new : Operand) (q : Reg) :
    (vs.map fun v => (v.replace r new).1).countP (·.uses q) =
      (if q = r then 0 else vs.countP (·.uses q)) +
        if new.uses q = true then vs.countP (·.uses r) else 0 := by
  induction vs with
  | nil => simp
  | cons v vs ih =>
      simp only [List.map_cons, List.countP_cons, ih, uses_replace]
      by_cases hqr : q = r
      · subst hqr
        cases v.uses q <;> cases new.uses q <;> simp
      · cases hread : v.uses r with
        | true =>
            have hq : v.uses q = false := uses_eq_false hread hqr
            cases new.uses q <;> simp [hqr, hq, Nat.add_assoc]
        | false =>
            simp only [hqr, Bool.false_eq_true, if_false, Nat.add_zero]
            exact Nat.add_right_comm _ _ _

theorem replace_snd (v : Operand) (r : Reg) (new : Operand) :
    (v.replace r new).2 = [v].countP (·.uses r) := by
  rw [replace_eq, List.countP_singleton]
  split <;> rfl

end Operand

/-! ## Instructions and blocks -/

/-- A walk over a list counts what there is to count in the parts of its members, if
each step does. -/
theorem mapCounting_snd {α : Type} {f : α → α × Nat} {parts : α → List Operand}
    {test : Operand → Bool} (hf : ∀ a, (f a).2 = (parts a).countP test) (as : List α) :
    (mapCounting f as).2 = (as.flatMap parts).countP test := by
  induction as with
  | nil => rfl
  | cons a as ih =>
      rw [List.flatMap_cons, List.countP_append, ← hf, ← ih]
      rfl

namespace Instr

theorem replace_snd (i : Instr) (r : Reg) (new : Operand) :
    (i.replace r new).2 = i.operands.countP (·.uses r) := by
  have hlist : ∀ vs : List Operand,
      (mapCounting (·.replace r new) vs).2 = vs.countP (·.uses r) := by
    intro vs
    rw [mapCounting_snd fun v => v.replace_snd r new, List.flatMap_singleton']
  cases i with
  | call c =>
      show (c.callee.replace r new).2 + (mapCounting (·.replace r new) c.args).2 = _
      rw [hlist, Operand.replace_snd, ← List.countP_append]
      rfl
  | op result ty opcode operands => exact hlist operands
  | store value target =>
      show (value.replace r new).2 + (target.replace r new).2 = _
      rw [Operand.replace_snd, Operand.replace_snd, ← List.countP_append]
      rfl
  | ret value =>
      cases value with
      | none => rfl
      | some value => exact value.replace_snd r new

/-- `i'` is `i` with `new` for register `r` in its operands, and the same besides: of the
same kind and outline, with as many operands in the same places. -/
structure Replaced (i : Instr) (r : Reg) (new : Operand) (i' : Instr) : Prop where
  outline : i'.outline = i.outline
  operands : List.Forall₂ (fun v v' => v.Replaced r new v') i.operands i'.operands

theorem replaced_replace (i : Instr) (r : Reg) (new : Operand) :
    i.Replaced r new (i.replace r new).1 := by
  rw [replace_fst]
  refine ⟨i.outline_mapOperands _, ?_⟩
  rw [operands_mapOperands, List.forall₂_map_right_iff]
  exact List.forall₂_same.mpr fun v _ => v.replaced_replace r new

end Instr

namespace Block

theorem replace_snd (b : Block) (r : Reg) (new : Operand) :
    (b.replace r new).2 = (b.instrs.flatMap Instr.operands).countP (·.uses r) :=
  mapCounting_snd (fun i => i.replace_snd r new) b.instrs

/-- `b'` is `b` with `new` for register `r`, instruction by instruction. -/
structure Replaced (b : Block) (r : Reg) (new : Operand) (b' : Block) : Prop where
  label : b'.label = b.label
  instrs : List.Forall₂ (fun i i' => i.Replaced r new i') b.instrs b'.instrs

theorem replaced_replace (b : Block) (r : Reg) (new : Operand) :
    b.Replaced r new (b.replace r new).1 := by
  refine ⟨rfl, ?_⟩
  show List.Forall₂ _ b.instrs (mapCounting (·.replace r new) b.instrs).1
  rw [mapCounting_fst, List.forall₂_map_right_iff]
  exact List.forall₂_same.mpr fun i _ => i.replaced_replace r new

end Block

/-! ## Functions -/

namespace Func

/-- `f'` is `f` with `new` for register `r`, block by block; a declaration has none. -/
structure Replaced (f : Func) (r : Reg) (new : Operand) (f' : Func) : Prop where
  name : f'.name = f.name
  ret : f'.ret = f.ret
  params : f'.params = f.params
  variadic : f'.variadic = f.variadic
  linkage : f'.linkage = f.linkage
  body : Option.Rel (List.Forall₂ fun b b' => b.Replaced r new b') f.body f'.body

theorem replaced_replaceUses (f : Func) (r : Reg) (new : Operand) :
    f.Replaced r new (f.replaceUses r new).1 := by
  cases f with
  | mk name ret params variadic linkage body =>
      cases body with
      | none => exact ⟨rfl, rfl, rfl, rfl, rfl, .none⟩
      | some blocks =>
          refine ⟨rfl, rfl, rfl, rfl, rfl, .some ?_⟩
          rw [mapCounting_fst, List.forall₂_map_right_iff]
          exact List.forall₂_same.mpr fun b _ => b.replaced_replace r new

theorem replaceUses_snd (f : Func) (r : Reg) (new : Operand) :
    (f.replaceUses r new).2 = f.countUses r := by
  rw [countUses, instrs, List.flatMap_assoc]
  cases f with
  | mk name ret params variadic linkage body =>
      cases body with
      | none => rfl
      | some blocks => exact mapCounting_snd (fun b => b.replace_snd r new) blocks

theorem countUses_replaceUses (f : Func) (r : Reg) (new : Operand) (q : Reg) :
    (f.replaceUses r new).1.countUses q =
      (if q = r then 0 else f.countUses q) + if new.uses q = true then f.countUses r else 0 := by
  have hoperands : (f.replaceUses r new).1.instrs.flatMap Instr.operands =
      (f.instrs.flatMap Instr.operands).map fun v => (v.replace r new).1 := by
    rw [replaceUses_fst, instrs_mapInstrs, List.flatMap_map, List.map_flatMap]
    simp only [Instr.operands_mapOperands]
  rw [countUses, hoperands, Operand.countP_uses_replace]
  rfl

/-- **Replacing uses is counting them and nothing else.** A register is replaced as
often as it is used. Afterwards it has no use, and every other register has those it
had; to these come, for the register that the new value reads, as many as were
replaced. The operands that read the replaced register hold the new value under their
casts, all other operands are the same, and so is everything that is not an operand. -/
theorem replaceUses_exact (f : Func) (r : Reg) (new : Operand) :
    (f.replaceUses r new).2 = f.countUses r ∧
      (∀ q, (f.replaceUses r new).1.countUses q =
        (if q = r then 0 else f.countUses q) +
          if new.uses q = true then (f.replaceUses r new).2 else 0) ∧
      f.Replaced r new (f.replaceUses r new).1 := by
  refine ⟨f.replaceUses_snd r new, fun q => ?_, f.replaced_replaceUses r new⟩
  rw [replaceUses_snd]
  exact f.countUses_replaceUses r new q

end Func

end ClosedWorld

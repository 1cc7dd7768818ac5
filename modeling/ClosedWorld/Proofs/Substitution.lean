import ClosedWorld.Func

/-!
# Replacing registers, one by one and all at once

A replacement walks over the operands of a function and counts as it goes. What
it leaves behind needs no counter: it is a map over the operands, and this file
states it as one (`Func.replaceUses_fst`).

Several replacements in a row are a substitution, which puts constants for many
registers at once. That is `Operand.substitute_replace`: a constant reads no
register, so whatever was replaced first is out of reach of everything that
comes later, and the first of two replacements of one register is the one that
counts.

A substitution changes only the core of an operand, and only from a register to
a constant. So it never changes which function an operand names, and every
register that is still read afterwards was read before.
-/

namespace ClosedWorld

theorem mapCounting_fst {α : Type} (f : α → α × Nat) (as : List α) :
    (mapCounting f as).1 = as.map fun a => (f a).1 := by
  induction as with
  | nil => rfl
  | cons a as ih => simp only [mapCounting, List.map_cons, ih]

/-! ## Operands -/

namespace Operand

/-- Puts constants in the place of registers, all at once. The casts stay. -/
def substitute (σ : Reg → Option Constant) : Operand → Operand
  | .reg r =>
      match σ r with
      | some c => .const c
      | none => .reg r
  | .cast value ty => .cast (value.substitute σ) ty
  | v => v

theorem substitute_none (v : Operand) : v.substitute (fun _ => none) = v := by
  induction v with
  | cast value ty ih => rw [substitute, ih]
  | func | global | reg | arg | const | asm => rfl

/-- A replacement and then a substitution is one substitution, in which the
replaced register has its constant already. -/
theorem substitute_replace (v : Operand) (r : Reg) (z : Constant) (σ : Reg → Option Constant) :
    (v.replace r (.const z)).1.substitute σ =
      v.substitute fun q => if q = r then some z else σ q := by
  induction v with
  | cast value ty ih =>
      rw [replace, substitute]
      simp only [substitute, ih]
  | reg q =>
      rw [replace]
      by_cases hq : q = r
      · simp only [substitute, if_pos hq]
      · simp only [substitute, if_neg hq]
  | func | global | arg | const | asm => rfl

/-- Two substitutions are one, in which the first has the first say. -/
theorem substitute_substitute (v : Operand) (σ τ : Reg → Option Constant) :
    (v.substitute σ).substitute τ = v.substitute fun r => (σ r).or (τ r) := by
  induction v with
  | cast value ty ih => rw [substitute, substitute, substitute, ih]
  | reg r =>
      simp only [substitute]
      cases hr : σ r with
      | none => simp only [substitute, Option.none_or]
      | some c => simp only [substitute, Option.some_or]
  | func | global | arg | const | asm => rfl

theorem core_substitute (v : Operand) (σ : Reg → Option Constant) :
    (v.substitute σ).core = v.core.substitute σ := by
  induction v with
  | cast value ty ih => rw [substitute, core, core, ih]
  | reg r =>
      simp only [substitute, core]
      cases σ r <;> rfl
  | func | global | arg | const | asm => rfl

theorem core_ne_cast (v value : Operand) (ty : Ty) : v.core ≠ .cast value ty := by
  induction v with
  | cast _ _ ih => exact ih
  | func | global | reg | arg | const | asm => exact Operand.noConfusion

/-- A substitution never changes which function an operand names. -/
theorem callee?_substitute (v : Operand) (σ : Reg → Option Constant) :
    (v.substitute σ).callee? = v.callee? := by
  rw [callee?, callee?, core_substitute]
  cases hv : v.core with
  | cast value ty => exact absurd hv (core_ne_cast v value ty)
  | reg r =>
      simp only [substitute]
      cases σ r <;> rfl
  | func | global | arg | const | asm => rfl

/-- What an operand reads after a substitution it read before, and the
substitution has nothing for it. -/
theorem reg?_substitute {v : Operand} {σ : Reg → Option Constant} {r : Reg}
    (h : (v.substitute σ).reg? = some r) : v.reg? = some r ∧ σ r = none := by
  rw [reg?, core_substitute] at h
  rw [reg?]
  cases hv : v.core with
  | cast value ty => exact absurd hv (core_ne_cast v value ty)
  | reg q =>
      rw [hv] at h
      simp only [substitute] at h
      cases hq : σ q with
      | some c => simp [hq] at h
      | none =>
          have hr : q = r := by simpa [hq] using h
          subst hr
          exact ⟨rfl, hq⟩
  | func | global | arg | const | asm =>
      rw [hv] at h
      exact absurd h (by simp [substitute])

/-- A substitution by constants without symbols brings no symbol in. -/
theorem symbols_substitute {v : Operand} {σ : Reg → Option Constant}
    (hσ : ∀ r c, σ r = some c → c.symbols = []) : (v.substitute σ).symbols = v.symbols := by
  induction v with
  | cast value ty ih => rw [substitute, symbols, symbols, ih]
  | reg r =>
      rw [substitute]
      cases hr : σ r with
      | none => rfl
      | some c => exact hσ r c hr
  | func | global | arg | const | asm => rfl

end Operand

/-! ## Instructions -/

/-- Changes the callee and the arguments of a call. -/
def Call.mapOperands (g : Operand → Operand) (c : Call) : Call :=
  { c with callee := g c.callee, args := c.args.map g }

namespace Instr

/-- Changes every operand of an instruction, and nothing else of it. -/
def mapOperands (g : Operand → Operand) : Instr → Instr
  | .call c => .call (c.mapOperands g)
  | .op result ty opcode operands => .op result ty opcode (operands.map g)
  | .store value target => .store (g value) (g target)
  | .ret value => .ret (value.map g)

theorem replace_fst (i : Instr) (r : Reg) (new : Operand) :
    (i.replace r new).1 = i.mapOperands fun v => (v.replace r new).1 := by
  cases i with
  | call c => simp only [replace, mapOperands, Call.mapOperands, mapCounting_fst]
  | op result ty opcode operands => simp only [replace, mapOperands, mapCounting_fst]
  | store value target => rfl
  | ret value => cases value <;> rfl

theorem mapOperands_id (i : Instr) : i.mapOperands (fun v => v) = i := by
  cases i <;> simp [mapOperands, Call.mapOperands]

theorem mapOperands_mapOperands (i : Instr) (g h : Operand → Operand) :
    (i.mapOperands g).mapOperands h = i.mapOperands fun v => h (g v) := by
  cases i <;> simp [mapOperands, Call.mapOperands, Function.comp_def]

@[simp] theorem operands_mapOperands (i : Instr) (g : Operand → Operand) :
    (i.mapOperands g).operands = i.operands.map g := by
  cases i with
  | ret value => cases value <;> rfl
  | call | op | store => rfl

@[simp] theorem result?_mapOperands (i : Instr) (g : Operand → Operand) :
    (i.mapOperands g).result? = i.result? := by
  cases i <;> rfl

@[simp] theorem call?_mapOperands (i : Instr) (g : Operand → Operand) :
    (i.mapOperands g).call? = i.call?.map (Call.mapOperands g) := by
  cases i <;> rfl

end Instr

/-! ## Functions -/

/-- Changes every instruction of a block. -/
def Block.mapInstrs (g : Instr → Instr) (b : Block) : Block := { b with instrs := b.instrs.map g }

namespace Func

/-- Changes every instruction of a body. -/
def mapInstrs (g : Instr → Instr) (f : Func) : Func :=
  { f with body := f.body.map fun blocks => blocks.map (Block.mapInstrs g) }

theorem mapInstrs_id (f : Func) : f.mapInstrs (fun i => i) = f := by
  have hb : (Block.mapInstrs fun i => i) = id := by
    funext b
    simp only [Block.mapInstrs, List.map_id', id_eq]
  rw [mapInstrs, hb]
  simp only [List.map_id, Option.map_id']

theorem mapInstrs_mapInstrs (f : Func) (g h : Instr → Instr) :
    (f.mapInstrs g).mapInstrs h = f.mapInstrs fun i => h (g i) := by
  have hb : Block.mapInstrs h ∘ Block.mapInstrs g = Block.mapInstrs fun i => h (g i) := by
    funext b
    simp only [Function.comp_def, Block.mapInstrs, List.map_map]
  simp only [mapInstrs, Option.map_map, Function.comp_def, List.map_map]
  rw [← hb]
  rfl

@[simp] theorem instrs_mapInstrs (f : Func) (g : Instr → Instr) :
    (f.mapInstrs g).instrs = f.instrs.map g := by
  cases f with
  | mk name ret params variadic linkage body =>
      cases body with
      | none => rfl
      | some blocks =>
          show (blocks.map (Block.mapInstrs g)).flatMap Block.instrs =
            (blocks.flatMap Block.instrs).map g
          rw [List.flatMap_map, List.map_flatMap]
          rfl

theorem replaceUses_fst (f : Func) (r : Reg) (new : Operand) :
    (f.replaceUses r new).1 = f.mapInstrs (·.mapOperands fun v => (v.replace r new).1) := by
  have hblock : ∀ b : Block, (b.replace r new).1 =
      b.mapInstrs (·.mapOperands fun v => (v.replace r new).1) := by
    intro b
    simp only [Block.replace, Block.mapInstrs, mapCounting_fst, Instr.replace_fst]
  cases f with
  | mk name ret params variadic linkage body =>
      cases body with
      | none => rfl
      | some blocks => simp only [replaceUses, mapInstrs, mapCounting_fst, hblock, Option.map_some]

end Func

end ClosedWorld

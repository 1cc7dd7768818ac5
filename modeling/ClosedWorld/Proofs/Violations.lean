import ClosedWorld.Proofs.Induction
import ClosedWorld.Proofs.Lookup
import ClosedWorld.Proofs.WellFormed
import Mathlib.Data.List.Count
import Mathlib.Data.List.Nodup
import Mathlib.Data.Prod.Basic

/-!
# One finding for one violation

Verification walks over a program twice and returns a list of findings. What it
is meant to find can be said without a walk: a violation is at a place, and
there are seven kinds of it (`Func.Violates`, `Global.Violates`). This file shows
that the list is an enumeration of the violations. Every one of them is in it
once, and nothing else is.

Findings do not say where they are, so two of them can be equal while the
violations are not. The walk is therefore repeated with the places written down
(`Program.occurrences`); without the places it is the list of findings, and with
them no entry comes twice.

A register that is defined several times is one violation for every definition
but the first. The walk knows only which registers it has met, and the place of a
definition says the same: there is an earlier one.
-/

namespace ClosedWorld

/-! ## Places -/

/-- A place in an instruction: where its result is named, or somewhere in an operand. -/
inductive Instr.Place where
  | result
  /-- A place in the operand of this position: the indices of the array elements
  on the way to it. Casts need no mention, since there is one way through them. -/
  | operand (index : Nat) (path : List Nat)
  deriving DecidableEq

/-- A place in a function: its name, or somewhere in an instruction. -/
inductive Func.Place where
  | name
  /-- A place in the instruction of this position, all blocks taken together. -/
  | instr (index : Nat) (place : Instr.Place)
  deriving DecidableEq

/-- A place in a global: its name, or somewhere in its initial value. -/
inductive Global.Place where
  | name
  /-- A place in the initial value. -/
  | initial (path : List Nat)
  deriving DecidableEq

/-- A place in a program. -/
inductive Program.Place where
  | global (index : Nat) (place : Global.Place)
  | func (index : Nat) (place : Func.Place)
  deriving DecidableEq

/-! ## Violations -/

/-- The constant mentions a symbol at a place, under casts and inside arrays. -/
inductive Constant.Mentions : Constant → List Nat → Symbol → Prop where
  | func {name : String} : Mentions (.funcAddr name) [] (.func name)
  | global {name : String} : Mentions (.globalAddr name) [] (.global name)
  | bitcast {value : Constant} {ty : Ty} {path : List Nat} {s : Symbol} :
      Mentions value path s → Mentions (.bitcast value ty) path s
  | array {elem : Ty} {elems : List Constant} {n : Nat} {c : Constant} {path : List Nat}
      {s : Symbol} : elems[n]? = some c → Mentions c path s →
      Mentions (.array elem elems) (n :: path) s

/-- The operand mentions a symbol at a place, under casts. -/
inductive Operand.Mentions : Operand → List Nat → Symbol → Prop where
  | func {name : String} : Mentions (.func name) [] (.func name)
  | global {name : String} : Mentions (.global name) [] (.global name)
  | const {c : Constant} {path : List Nat} {s : Symbol} :
      c.Mentions path s → Mentions (.const c) path s
  | cast {value : Operand} {ty : Ty} {path : List Nat} {s : Symbol} :
      Mentions value path s → Mentions (.cast value ty) path s

/-- The operand reads a register, under casts. -/
inductive Operand.Reads (r : Reg) : Operand → Prop where
  | reg : Reads r (.reg r)
  | cast {value : Operand} {ty : Ty} : Reads r value → Reads r (.cast value ty)

/-- The symbol is a function or a global of the program. -/
def Program.Has (p : Program) : Symbol → Prop
  | .func name => ∃ f ∈ p.functions, f.name = name
  | .global name => ∃ g ∈ p.globals, g.name = name

/-- What is wrong with a global, where it is, and how that is reported. A global can lack
its name, and its initial value can mention a symbol that the program does not have. -/
inductive Global.Violates (p : Program) (g : Global) : Global.Place → Finding → Prop where
  | unnamed : g.name = "" → Violates p g .name .unnamedSymbol
  | unknownSymbol {c : Constant} {path : List Nat} {s : Symbol} :
      g.initial = some c → c.Mentions path s → ¬ p.Has s →
      Violates p g (.initial path) (.unknownSymbol g.name s)

/-- The instruction at a position of a function defines the register. -/
def Func.DefinesAt (f : Func) (n : Nat) (r : Reg) : Prop :=
  ∃ i, f.instrs[n]? = some i ∧ i.result? = some r

/-- What is wrong with a function, where it is, and how that is reported. Symbols are
looked up in the whole program, registers only among the instructions of the function,
of which a later one may define what an earlier one reads. -/
inductive Func.Violates (p : Program) (f : Func) : Func.Place → Finding → Prop where
  | unnamed : f.name = "" → Violates p f .name .unnamedSymbol
  | redefinedReg {m n : Nat} {r : Reg} :
      m < n → f.DefinesAt m r → f.DefinesAt n r →
      Violates p f (.instr n .result) (.redefinedReg f.name r)
  | voidResult {n : Nat} {c : Call} {r : Reg} :
      f.instrs[n]? = some (.call c) → c.ret = .void → c.result = some r →
      Violates p f (.instr n .result) (.voidResult f.name c.callee)
  | unknownSymbol {n k : Nat} {i : Instr} {v : Operand} {path : List Nat} {s : Symbol} :
      f.instrs[n]? = some i → i.operands[k]? = some v → v.Mentions path s → ¬ p.Has s →
      Violates p f (.instr n (.operand k path)) (.unknownSymbol f.name s)
  | undefinedReg {n k : Nat} {i : Instr} {v : Operand} {r : Reg} :
      f.instrs[n]? = some i → i.operands[k]? = some v → v.Reads r → (∀ m, ¬ f.DefinesAt m r) →
      Violates p f (.instr n (.operand k [])) (.undefinedReg f.name r)

/-- The violations of a program, each with its place and its finding. -/
inductive Program.Violates (p : Program) : Program.Place → Finding → Prop where
  | global {n : Nat} {g : Global} {place : Global.Place} {finding : Finding} :
      p.globals[n]? = some g → g.Violates p place finding →
      Violates p (.global n place) finding
  | func {n : Nat} {f : Func} {place : Func.Place} {finding : Finding} :
      p.functions[n]? = some f → f.Violates p place finding →
      Violates p (.func n place) finding

/-! ## Walks that write places down -/

section Placed

variable {α β π π' : Type}

/-- What the members of a list contribute, with the position of the member put
around every place. -/
def placed (around : Nat → π → π') (contribution : α → List (π × β)) : Nat → List α → List (π' × β)
  | _, [] => []
  | n, a :: as =>
      (contribution a).map (fun (place, b) => (around n place, b))
        ++ placed around contribution (n + 1) as

theorem map_snd_placed {around : Nat → π → π'} {contribution : α → List (π × β)} {g : α → List β}
    {as : List α} (h : ∀ a ∈ as, (contribution a).map Prod.snd = g a) (n : Nat) :
    (placed around contribution n as).map Prod.snd = as.flatMap g := by
  induction as generalizing n with
  | nil => rfl
  | cons a as ih =>
      obtain ⟨ha, has⟩ := List.forall_mem_cons.mp h
      rw [placed, List.map_append, ih has, List.flatMap_cons, List.map_map, ← ha]
      rfl

theorem mem_placed {around : Nat → π → π'} {contribution : α → List (π × β)} {n : Nat} {as : List α}
    {place' : π'} {b : β} :
    (place', b) ∈ placed around contribution n as ↔
      ∃ k a place, as[k]? = some a ∧ (place, b) ∈ contribution a ∧
        around (n + k) place = place' := by
  induction as generalizing n with
  | nil => simp [placed]
  | cons a as ih =>
      rw [placed, List.mem_append, ih, List.mem_map]
      constructor
      · rintro (⟨⟨place, b'⟩, hmem, heq⟩ | ⟨k, a', place, ha', hmem, heq⟩)
        · cases heq
          exact ⟨0, a, place, rfl, hmem, rfl⟩
        · refine ⟨k + 1, a', place, ha', hmem, ?_⟩
          rw [← heq, Nat.add_assoc, Nat.add_comm 1 k]
      · rintro ⟨k, a', place, ha', hmem, heq⟩
        cases k with
        | zero =>
            cases ha'
            exact Or.inl ⟨(place, b), hmem, by rw [← heq]; rfl⟩
        | succ k =>
            refine Or.inr ⟨k, a', place, ha', hmem, ?_⟩
            rw [← heq, Nat.add_assoc, Nat.add_comm 1 k]

theorem nodup_placed {around : Nat → π → π'} {contribution : α → List (π × β)} {as : List α}
    (hinj : ∀ m n x y, around m x = around n y → m = n ∧ x = y)
    (h : ∀ a ∈ as, (contribution a).Nodup) (n : Nat) :
    (placed around contribution n as).Nodup := by
  induction as generalizing n with
  | nil => exact List.nodup_nil
  | cons a as ih =>
      obtain ⟨ha, has⟩ := List.forall_mem_cons.mp h
      rw [placed, List.nodup_append]
      refine ⟨ha.map fun ⟨x, b⟩ ⟨y, b'⟩ heq => ?_, ih has (n + 1), ?_⟩
      · have hplace := (hinj n n x y (congrArg Prod.fst heq)).2
        have hb : b = b' := congrArg Prod.snd heq
        rw [hplace, hb]
      · rintro _ hfirst ⟨place', b'⟩ hrest rfl
        obtain ⟨⟨place, b⟩, -, heq⟩ := List.mem_map.mp hfirst
        obtain ⟨k, a', place₂, -, -, heq₂⟩ := mem_placed.mp hrest
        have hn := (hinj n (n + 1 + k) place place₂ ((congrArg Prod.fst heq).trans heq₂.symm)).1
        omega

end Placed

/-! ## Mentioned symbols -/

namespace Constant

mutual

/-- The symbols mentioned, with their places. -/
def mentions : Constant → List (List Nat × Symbol)
  | .funcAddr name => [([], .func name)]
  | .globalAddr name => [([], .global name)]
  | .bitcast value _ => mentions value
  | .array _ elems => mentionsFrom 0 elems
  | _ => []

/-- The symbols mentioned by a list of constants, of which the first is the
`n`-th of its array. -/
def mentionsFrom (n : Nat) : List Constant → List (List Nat × Symbol)
  | [] => []
  | c :: cs => (mentions c).map (fun (path, s) => (n :: path, s)) ++ mentionsFrom (n + 1) cs

end

theorem mentionsFrom_eq_placed (n : Nat) (cs : List Constant) :
    mentionsFrom n cs = placed List.cons mentions n cs := by
  induction cs generalizing n with
  | nil => rfl
  | cons c cs ih => rw [mentionsFrom, placed, ih]

theorem map_snd_mentions (c : Constant) : c.mentions.map Prod.snd = c.symbols := by
  induction c with
  | bitcast value ty ih => exact ih
  | array elem elems ih =>
      rw [mentions, mentionsFrom_eq_placed, symbols, symbolsAll_eq_flatMap, map_snd_placed ih]
  | int | float | null | zeroInit | funcAddr | globalAddr => rfl

theorem mem_mentions {c : Constant} {path : List Nat} {s : Symbol} :
    (path, s) ∈ c.mentions ↔ c.Mentions path s := by
  constructor
  · intro h
    induction c generalizing path with
    | funcAddr name =>
        cases List.mem_singleton.mp h
        exact .func
    | globalAddr name =>
        cases List.mem_singleton.mp h
        exact .global
    | bitcast value ty ih => exact .bitcast (ih h)
    | array elem elems ih =>
        rw [mentions, mentionsFrom_eq_placed, mem_placed] at h
        obtain ⟨n, c, path', hc, hmem, rfl⟩ := h
        rw [Nat.zero_add]
        exact .array hc (ih c (List.mem_of_getElem? hc) hmem)
    | int | float | null | zeroInit => cases h
  · intro h
    induction h with
    | func | global => exact List.mem_singleton.mpr rfl
    | bitcast _ ih => exact ih
    | @array _ _ n c path _ hc _ ih =>
        rw [mentions, mentionsFrom_eq_placed, mem_placed]
        exact ⟨n, c, path, hc, ih, by rw [Nat.zero_add]⟩

theorem nodup_mentions (c : Constant) : c.mentions.Nodup := by
  induction c with
  | bitcast value ty ih => exact ih
  | array elem elems ih =>
      rw [mentions, mentionsFrom_eq_placed]
      exact nodup_placed (fun m n x y heq => List.cons.inj heq) ih 0
  | funcAddr | globalAddr => exact List.nodup_singleton _
  | int | float | null | zeroInit => exact List.nodup_nil

end Constant

namespace Operand

/-- The symbols mentioned, with their places. -/
def mentions : Operand → List (List Nat × Symbol)
  | .func name => [([], .func name)]
  | .global name => [([], .global name)]
  | .const c => c.mentions
  | .cast value _ => value.mentions
  | .reg _ | .arg _ | .asm .. => []

theorem map_snd_mentions (v : Operand) : v.mentions.map Prod.snd = v.symbols := by
  induction v with
  | const c => exact c.map_snd_mentions
  | cast value ty ih => exact ih
  | func | global | reg | arg | asm => rfl

theorem mem_mentions {v : Operand} {path : List Nat} {s : Symbol} :
    (path, s) ∈ v.mentions ↔ v.Mentions path s := by
  constructor
  · intro h
    induction v with
    | func name =>
        cases List.mem_singleton.mp h
        exact .func
    | global name =>
        cases List.mem_singleton.mp h
        exact .global
    | const c => exact .const (Constant.mem_mentions.mp h)
    | cast value ty ih => exact .cast (ih h)
    | reg | arg | asm => cases h
  · intro h
    induction h with
    | func | global => exact List.mem_singleton.mpr rfl
    | const hc => exact Constant.mem_mentions.mpr hc
    | cast _ ih => exact ih

theorem nodup_mentions (v : Operand) : v.mentions.Nodup := by
  induction v with
  | const c => exact c.nodup_mentions
  | cast value ty ih => exact ih
  | func | global => exact List.nodup_singleton _
  | reg | arg | asm => exact List.nodup_nil

theorem reg?_eq_some_iff {v : Operand} {r : Reg} : v.reg? = some r ↔ v.Reads r := by
  constructor
  · intro h
    induction v with
    | reg r' =>
        cases h
        exact .reg
    | cast value ty ih => exact .cast (ih h)
    | func | global | arg | const | asm => cases h
  · intro h
    induction h with
    | reg => rfl
    | cast _ ih => exact ih

end Operand

/-! ## Definitions that come too late -/

/-- The definitions of registers that were seen before, with the positions of the
instructions, of which the first is the `n`-th. -/
def redefinitions (seen : List Reg) (n : Nat) : List Instr → List (Nat × Reg)
  | [] => []
  | i :: is =>
      match i.result? with
      | none => redefinitions seen (n + 1) is
      | some r =>
          if r ∈ seen then (n, r) :: redefinitions seen (n + 1) is
          else redefinitions (r :: seen) (n + 1) is

theorem map_snd_redefinitions (seen : List Reg) (n : Nat) (is : List Instr) :
    (redefinitions seen n is).map Prod.snd = Func.repeated seen (is.filterMap Instr.result?) := by
  induction is generalizing seen n with
  | nil => rfl
  | cons i is ih =>
      rw [redefinitions, List.filterMap_cons]
      cases i.result? with
      | none => exact ih seen (n + 1)
      | some r =>
          simp only [Func.repeated]
          by_cases hr : r ∈ seen
          · rw [if_pos hr, if_pos hr, List.map_cons, ih]
          · rw [if_neg hr, if_neg hr, ih]

theorem mem_redefinitions {seen : List Reg} {n m : Nat} {is : List Instr} {r : Reg} :
    (m, r) ∈ redefinitions seen n is ↔
      ∃ k, m = n + k ∧ is[k]?.bind Instr.result? = some r ∧
        (r ∈ seen ∨ ∃ k' < k, is[k']?.bind Instr.result? = some r) := by
  induction is generalizing seen n with
  | nil => simp [redefinitions]
  | cons i is ih =>
      -- The first instruction has position 0, and the others have moved by one.
      rw [redefinitions, ← Nat.or_exists_add_one]
      simp only [Nat.exists_lt_succ_left, List.getElem?_cons_zero, List.getElem?_cons_succ,
        Option.bind_some, Nat.add_zero, Nat.not_lt_zero, false_and, exists_false, or_false]
      cases hi : i.result? with
      | none =>
          simp only [ih, reduceCtorEq, false_and, and_false, false_or, Nat.add_assoc,
            Nat.add_comm 1]
      | some q =>
          have hone : ∀ k, n + 1 + k = n + (k + 1) := fun k => by omega
          by_cases hqr : q = r
          · subst hqr
            by_cases hq : q ∈ seen
            · simp [hq, ih, hone]
            · simp [hq, ih, hone]
          · by_cases hq : q ∈ seen
            · simp [hq, ih, hone, hqr, Ne.symm hqr]
            · simp [hq, ih, hone, hqr, Ne.symm hqr]

theorem nodup_redefinitions (seen : List Reg) (n : Nat) (is : List Instr) :
    (redefinitions seen n is).Nodup := by
  induction is generalizing seen n with
  | nil => exact List.nodup_nil
  | cons i is ih =>
      rw [redefinitions]
      cases i.result? with
      | none => exact ih seen (n + 1)
      | some r =>
          simp only []
          split
          · refine List.nodup_cons.mpr ⟨fun hmem => ?_, ih seen (n + 1)⟩
            obtain ⟨k, hk, -⟩ := mem_redefinitions.mp hmem
            omega
          · exact ih (r :: seen) (n + 1)

theorem count_repeated (seen rs : List Reg) (r : Reg) :
    (Func.repeated seen rs).count r = if r ∈ seen then rs.count r else rs.count r - 1 := by
  induction rs generalizing seen with
  | nil => simp [Func.repeated]
  | cons q rs ih =>
      rw [Func.repeated]
      by_cases hq : q ∈ seen
      · rw [if_pos hq, List.count_cons, List.count_cons, ih]
        by_cases hqr : q = r
        · subst hqr
          simp [hq]
        · simp [hqr]
      · rw [if_neg hq, List.count_cons, ih]
        by_cases hqr : q = r
        · subst hqr
          simp [hq]
        · simp [hqr, Ne.symm hqr]

namespace Func

theorem definesAt_iff {f : Func} {n : Nat} {r : Reg} :
    f.DefinesAt n r ↔ f.instrs[n]?.bind Instr.result? = some r := by
  rw [Option.bind_eq_some_iff]
  exact Iff.rfl

theorem mem_definedRegs_iff {f : Func} {r : Reg} : r ∈ f.definedRegs ↔ ∃ n, f.DefinesAt n r := by
  rw [definedRegs, List.mem_filterMap]
  constructor
  · rintro ⟨i, hi, hr⟩
    obtain ⟨n, hn⟩ := List.mem_iff_getElem?.mp hi
    exact ⟨n, i, hn, hr⟩
  · rintro ⟨n, i, hn, hr⟩
    exact ⟨i, List.mem_of_getElem? hn, hr⟩

end Func

theorem Ty.isVoid_iff {t : Ty} : t.isVoid = true ↔ t = .void := by
  cases t <;> simp [isVoid]

/-! ## The findings with their places -/

namespace Program

theorem defines_eq_false_iff {p : Program} {s : Symbol} : p.defines s = false ↔ ¬ p.Has s := by
  rw [← Bool.not_eq_true, not_iff_not]
  cases s with
  | func name => rw [defines, isSome_function?, List.mem_map, Has]
  | global name => rw [defines, isSome_global?, List.mem_map, Has]

/-- The mentioned symbols that the program lacks, with their places. -/
def lacking (p : Program) (mentions : List (List Nat × Symbol)) : List (List Nat × Symbol) :=
  mentions.filter fun (_, s) => !p.defines s

theorem mem_lacking {p : Program} {mentions : List (List Nat × Symbol)} {path : List Nat}
    {s : Symbol} : (path, s) ∈ p.lacking mentions ↔ (path, s) ∈ mentions ∧ ¬ p.Has s := by
  rw [lacking, List.mem_filter, Bool.not_eq_true', defines_eq_false_iff]

theorem map_lacking {p : Program} {owner : String} {mentions : List (List Nat × Symbol)} :
    (p.lacking mentions).map (fun (_, s) => Finding.unknownSymbol owner s) =
      p.symbolFindings owner (mentions.map Prod.snd) := by
  rw [symbolFindings, List.filter_map, List.map_map]
  rfl

/-- The findings of one operand, with their places: the symbols that the program lacks,
and a register that nothing defines. -/
def operandOccurrences (p : Program) (owner : String) (defined : List Reg) (v : Operand) :
    List (List Nat × Finding) :=
  (p.lacking v.mentions).map (fun (path, s) => (path, .unknownSymbol owner s))
    ++ (v.reg?.toList.filter (· ∉ defined)).map fun r => ([], .undefinedReg owner r)

/-- The findings of one instruction but for redefinitions, with their places. -/
def instrOccurrences (p : Program) (owner : String) (defined : List Reg) (i : Instr) :
    List (Instr.Place × Finding) :=
  (i.resultFindings owner).map (.result, ·)
    ++ placed .operand (p.operandOccurrences owner defined) 0 i.operands

/-- The findings of one function, with their places, in the order of the report. -/
def functionOccurrences (p : Program) (f : Func) : List (Func.Place × Finding) :=
  (nameFindings f.name).map (.name, ·)
    ++ (redefinitions [] 0 f.instrs).map (fun (n, r) => (.instr n .result, .redefinedReg f.name r))
    ++ placed .instr (p.instrOccurrences f.name f.definedRegs) 0 f.instrs

/-- The findings of one global, with their places, in the order of the report. -/
def globalOccurrences (p : Program) (g : Global) : List (Global.Place × Finding) :=
  (nameFindings g.name).map (.name, ·)
    ++ g.initial.toList.flatMap fun c =>
      (p.lacking c.mentions).map fun (path, s) => (.initial path, .unknownSymbol g.name s)

/-- Every finding of a program, with its place. -/
def occurrences (p : Program) : List (Place × Finding) :=
  placed .global p.globalOccurrences 0 p.globals ++ placed .func p.functionOccurrences 0 p.functions

variable {p : Program}

theorem map_snd_operandOccurrences (owner : String) (defined : List Reg) (v : Operand) :
    (p.operandOccurrences owner defined v).map Prod.snd = p.operandFindings owner defined v := by
  rw [operandOccurrences, operandFindings, List.map_append, List.map_map, List.map_map,
    ← v.map_snd_mentions, ← map_lacking]
  rfl

theorem map_snd_instrOccurrences (owner : String) (defined : List Reg) (i : Instr) :
    (p.instrOccurrences owner defined i).map Prod.snd =
      i.resultFindings owner ++ i.operands.flatMap (p.operandFindings owner defined) := by
  rw [instrOccurrences, List.map_append, List.map_map,
    map_snd_placed fun v _ => map_snd_operandOccurrences owner defined v]
  exact congrArg (· ++ _) (List.map_id _)

theorem map_snd_functionOccurrences (f : Func) :
    (p.functionOccurrences f).map Prod.snd = p.functionFindings f := by
  rw [functionOccurrences, functionFindings, List.map_append, List.map_append, List.map_map,
    List.map_map, map_snd_placed fun i _ => map_snd_instrOccurrences f.name f.definedRegs i,
    Func.definedRegs, ← map_snd_redefinitions [] 0, List.map_map]
  exact congrArg (· ++ _ ++ _) (List.map_id _)

theorem map_snd_globalOccurrences (g : Global) :
    (p.globalOccurrences g).map Prod.snd = p.globalFindings g := by
  rw [globalOccurrences, globalFindings, List.map_append, List.map_map, List.map_flatMap]
  simp only [List.map_map, ← Constant.map_snd_mentions, ← map_lacking]
  exact congrArg (· ++ _) (List.map_id _)

theorem map_snd_occurrences : p.occurrences.map Prod.snd = p.findings := by
  rw [occurrences, findings, List.map_append, map_snd_placed fun g _ => map_snd_globalOccurrences g,
    map_snd_placed fun f _ => map_snd_functionOccurrences f]

/-! ## What the occurrences are -/

theorem mem_nameFindings {name : String} {x : Finding} :
    x ∈ nameFindings name ↔ name = "" ∧ x = .unnamedSymbol := by
  rw [nameFindings]
  split <;> simp_all

theorem mem_resultFindings {owner : String} {i : Instr} {x : Finding} :
    x ∈ i.resultFindings owner ↔
      ∃ c r, i = .call c ∧ c.ret = .void ∧ c.result = some r ∧ .voidResult owner c.callee = x := by
  cases i with
  | call c =>
      have hcond : (c.ret.isVoid = true ∧ c.result.isSome = true) ↔
          c.ret = .void ∧ ∃ r, c.result = some r := by
        rw [Ty.isVoid_iff, Option.isSome_iff_exists]
      rw [Instr.resultFindings]
      constructor
      · intro h
        split at h
        next hbound =>
            obtain ⟨hret, r, hr⟩ := hcond.mp hbound
            exact ⟨c, r, rfl, hret, hr, (List.mem_singleton.mp h).symm⟩
        next => cases h
      · rintro ⟨_, r, heq, hret, hr, rfl⟩
        cases heq
        rw [if_pos (hcond.mpr ⟨hret, r, hr⟩)]
        exact List.mem_singleton.mpr rfl
  | op | store | ret => simp [Instr.resultFindings]

theorem mem_operandOccurrences {owner : String} {defined : List Reg} {v : Operand}
    {path : List Nat} {x : Finding} :
    (path, x) ∈ p.operandOccurrences owner defined v ↔
      (∃ s, v.Mentions path s ∧ ¬ p.Has s ∧ .unknownSymbol owner s = x) ∨
        ∃ r, v.Reads r ∧ r ∉ defined ∧ path = [] ∧ .undefinedReg owner r = x := by
  simp only [operandOccurrences, List.mem_append, List.mem_map, Prod.exists, mem_lacking,
    Operand.mem_mentions, Prod.mk.injEq, List.mem_filter, Option.mem_toList,
    Operand.reg?_eq_some_iff, decide_eq_true_eq]
  grind

theorem mem_globalOccurrences {g : Global} {place : Global.Place} {x : Finding} :
    (place, x) ∈ p.globalOccurrences g ↔ g.Violates p place x := by
  simp only [globalOccurrences, List.mem_append, List.mem_map, List.mem_flatMap, Option.mem_toList,
    Prod.exists, mem_lacking, Constant.mem_mentions, Prod.mk.injEq, mem_nameFindings]
  constructor
  · rintro (⟨x, ⟨hname, rfl⟩, rfl, rfl⟩ | ⟨c, hc, path, s, ⟨hs, hno⟩, rfl, rfl⟩)
    · exact .unnamed hname
    · exact .unknownSymbol hc hs hno
  · intro h
    cases h with
    | unnamed hname => exact Or.inl ⟨_, ⟨hname, rfl⟩, rfl, rfl⟩
    | unknownSymbol hc hs hno => exact Or.inr ⟨_, hc, _, _, ⟨hs, hno⟩, rfl, rfl⟩

theorem mem_functionOccurrences {f : Func} {place : Func.Place} {x : Finding} :
    (place, x) ∈ p.functionOccurrences f ↔ f.Violates p place x := by
  rw [functionOccurrences, List.mem_append, List.mem_append]
  constructor
  · rintro ((h | h) | h)
    · obtain ⟨_, hx, heq⟩ := List.mem_map.mp h
      cases heq
      obtain ⟨hname, rfl⟩ := mem_nameFindings.mp hx
      exact .unnamed hname
    · obtain ⟨⟨n, r⟩, hr, heq⟩ := List.mem_map.mp h
      cases heq
      obtain ⟨k, rfl, hk, hseen | ⟨m, hm, hr⟩⟩ := mem_redefinitions.mp hr
      · cases hseen
      · rw [Nat.zero_add]
        exact .redefinedReg hm (Func.definesAt_iff.mpr hr) (Func.definesAt_iff.mpr hk)
    · obtain ⟨n, i, _, hi, hmem, rfl⟩ := mem_placed.mp h
      rw [Nat.zero_add]
      rcases List.mem_append.mp hmem with hresult | hoperand
      · obtain ⟨_, hx, heq⟩ := List.mem_map.mp hresult
        cases heq
        obtain ⟨c, r, rfl, hret, hr, rfl⟩ := mem_resultFindings.mp hx
        exact .voidResult hi hret hr
      · obtain ⟨k, v, path, hv, hv', rfl⟩ := mem_placed.mp hoperand
        rw [Nat.zero_add]
        rcases mem_operandOccurrences.mp hv' with ⟨s, hs, hno, rfl⟩ | ⟨r, hr, hnot, rfl, rfl⟩
        · exact .unknownSymbol hi hv hs hno
        · exact .undefinedReg hi hv hr fun m hm => hnot (Func.mem_definedRegs_iff.mpr ⟨m, hm⟩)
  · intro h
    cases h with
    | unnamed hname =>
        exact Or.inl (Or.inl (List.mem_map.mpr ⟨_, mem_nameFindings.mpr ⟨hname, rfl⟩, rfl⟩))
    | @redefinedReg m n r hmn hm hn =>
        refine Or.inl (Or.inr (List.mem_map.mpr ⟨(n, r), mem_redefinitions.mpr ?_, rfl⟩))
        exact ⟨n, (Nat.zero_add n).symm, Func.definesAt_iff.mp hn,
          Or.inr ⟨m, hmn, Func.definesAt_iff.mp hm⟩⟩
    | @voidResult n c r hc hvoid hresult =>
        refine Or.inr (mem_placed.mpr ⟨n, _, .result, hc, ?_, by rw [Nat.zero_add]⟩)
        refine List.mem_append_left _ (List.mem_map.mpr ⟨_, mem_resultFindings.mpr ?_, rfl⟩)
        exact ⟨c, r, rfl, hvoid, hresult, rfl⟩
    | @unknownSymbol n k i v path s hi hv hs hno =>
        refine Or.inr (mem_placed.mpr ⟨n, i, .operand k path, hi, ?_, by rw [Nat.zero_add]⟩)
        refine List.mem_append_right _ (mem_placed.mpr ⟨k, v, path, hv, ?_, by rw [Nat.zero_add]⟩)
        exact mem_operandOccurrences.mpr (Or.inl ⟨s, hs, hno, rfl⟩)
    | @undefinedReg n k i v r hi hv hr hno =>
        refine Or.inr (mem_placed.mpr ⟨n, i, .operand k [], hi, ?_, by rw [Nat.zero_add]⟩)
        refine List.mem_append_right _ (mem_placed.mpr ⟨k, v, [], hv, ?_, by rw [Nat.zero_add]⟩)
        refine mem_operandOccurrences.mpr (Or.inr ⟨r, hr, fun hmem => ?_, rfl, rfl⟩)
        obtain ⟨m, hm⟩ := Func.mem_definedRegs_iff.mp hmem
        exact hno m hm

theorem mem_occurrences {place : Place} {x : Finding} :
    (place, x) ∈ p.occurrences ↔ p.Violates place x := by
  rw [occurrences, List.mem_append, mem_placed, mem_placed]
  simp only [Nat.zero_add, mem_globalOccurrences, mem_functionOccurrences]
  constructor
  · rintro (⟨n, g, place, hg, hx, rfl⟩ | ⟨n, f, place, hf, hx, rfl⟩)
    · exact .global hg hx
    · exact .func hf hx
  · intro h
    cases h with
    | global hg hx => exact Or.inl ⟨_, _, _, hg, hx, rfl⟩
    | func hf hx => exact Or.inr ⟨_, _, _, hf, hx, rfl⟩

/-! ## No occurrence comes twice -/

theorem nodup_nameFindings (name : String) : (nameFindings name).Nodup := by
  rw [nameFindings]
  split
  · exact List.nodup_singleton _
  · exact List.nodup_nil

theorem nodup_resultFindings (owner : String) (i : Instr) : (i.resultFindings owner).Nodup := by
  cases i with
  | call c =>
      rw [Instr.resultFindings]
      split
      · exact List.nodup_singleton _
      · exact List.nodup_nil
  | op | store | ret => exact List.nodup_nil

theorem nodup_lacking {mentions : List (List Nat × Symbol)} (h : mentions.Nodup) {π β : Type}
    {around : List Nat → π} {finding : Symbol → β} (hp : Function.Injective around)
    (hf : Function.Injective finding) :
    ((p.lacking mentions).map fun (path, s) => (around path, finding s)).Nodup := by
  refine (h.filter _).map fun ⟨path, s⟩ ⟨path', s'⟩ heq => ?_
  obtain ⟨hpath, hs⟩ := Prod.mk.inj heq
  rw [hp hpath, hf hs]

theorem unknownSymbol_injective (owner : String) :
    Function.Injective (Finding.unknownSymbol owner) :=
  fun _ _ heq => (Finding.unknownSymbol.inj heq).2

theorem nodup_operandOccurrences (owner : String) (defined : List Reg) (v : Operand) :
    (p.operandOccurrences owner defined v).Nodup := by
  rw [operandOccurrences, List.nodup_append]
  refine ⟨nodup_lacking v.nodup_mentions (fun _ _ heq => heq) (unknownSymbol_injective owner),
    ?_, ?_⟩
  · cases v.reg? with
    | none => exact List.nodup_nil
    | some r =>
        refine List.Nodup.map (fun q q' heq => ?_) ((List.nodup_singleton r).filter _)
        exact (Finding.undefinedReg.inj (Prod.mk.inj heq).2).2
  · rintro _ hx _ hy rfl
    obtain ⟨_, -, rfl⟩ := List.mem_map.mp hx
    obtain ⟨_, -, heq⟩ := List.mem_map.mp hy
    exact nomatch (Prod.mk.inj heq).2

theorem nodup_instrOccurrences (owner : String) (defined : List Reg) (i : Instr) :
    (p.instrOccurrences owner defined i).Nodup := by
  rw [instrOccurrences, List.nodup_append]
  refine ⟨(nodup_resultFindings owner i).map (Prod.mk_right_injective _), ?_, ?_⟩
  · exact nodup_placed (fun m n x y heq => Instr.Place.operand.inj heq)
      (fun v _ => nodup_operandOccurrences owner defined v) 0
  · rintro _ hx ⟨place, x⟩ hy rfl
    obtain ⟨_, -, heq⟩ := List.mem_map.mp hx
    obtain ⟨_, _, _, -, -, rfl⟩ := mem_placed.mp hy
    cases heq

/-- A redefinition is at the place of a result, but it is no finding of the
instruction's own. -/
theorem redefinedReg_not_mem_instrOccurrences {owner owner' : String} {defined : List Reg}
    {i : Instr} {r : Reg} :
    (.result, .redefinedReg owner' r) ∉ p.instrOccurrences owner defined i := by
  intro h
  rcases List.mem_append.mp h with h | h
  · obtain ⟨x, hx, heq⟩ := List.mem_map.mp h
    obtain ⟨_, _, -, -, -, rfl⟩ := mem_resultFindings.mp hx
    cases heq
  · obtain ⟨_, _, _, -, -, heq⟩ := mem_placed.mp h
    cases heq

theorem nodup_functionOccurrences (f : Func) : (p.functionOccurrences f).Nodup := by
  rw [functionOccurrences, List.append_assoc, List.nodup_append]
  refine ⟨(nodup_nameFindings f.name).map (Prod.mk_right_injective _), ?_, ?_⟩
  · rw [List.nodup_append]
    refine ⟨(nodup_redefinitions [] 0 f.instrs).map fun ⟨m, q⟩ ⟨n, r⟩ heq => ?_,
      nodup_placed (fun m n x y heq => Func.Place.instr.inj heq)
        (fun i _ => nodup_instrOccurrences f.name f.definedRegs i) 0, ?_⟩
    · obtain ⟨hplace, hfinding⟩ := Prod.mk.inj heq
      rw [(Func.Place.instr.inj hplace).1, (Finding.redefinedReg.inj hfinding).2]
    · rintro _ hx ⟨place, x⟩ hy rfl
      obtain ⟨⟨n, r⟩, -, heq⟩ := List.mem_map.mp hx
      obtain ⟨k, i, place', -, hmem, rfl⟩ := mem_placed.mp hy
      cases heq
      exact redefinedReg_not_mem_instrOccurrences hmem
  · rintro _ hx ⟨place, x⟩ hy rfl
    obtain ⟨_, -, heq⟩ := List.mem_map.mp hx
    rcases List.mem_append.mp hy with hy | hy
    · obtain ⟨_, -, heq'⟩ := List.mem_map.mp hy
      cases heq.trans heq'.symm
    · obtain ⟨_, _, _, -, -, rfl⟩ := mem_placed.mp hy
      cases heq

theorem nodup_globalOccurrences (g : Global) : (p.globalOccurrences g).Nodup := by
  rw [globalOccurrences, List.nodup_append]
  refine ⟨(nodup_nameFindings g.name).map (Prod.mk_right_injective _), ?_, ?_⟩
  · cases g.initial with
    | none => exact List.nodup_nil
    | some c =>
        rw [Option.toList_some, List.flatMap_singleton]
        exact nodup_lacking c.nodup_mentions (fun _ _ heq => Global.Place.initial.inj heq)
          (unknownSymbol_injective g.name)
  · rintro _ hx _ hy rfl
    obtain ⟨_, -, rfl⟩ := List.mem_map.mp hx
    obtain ⟨_, -, hy⟩ := List.mem_flatMap.mp hy
    obtain ⟨_, -, heq⟩ := List.mem_map.mp hy
    cases heq

theorem nodup_occurrences : p.occurrences.Nodup := by
  rw [occurrences, List.nodup_append]
  refine ⟨nodup_placed (fun m n x y heq => Place.global.inj heq)
      (fun g _ => nodup_globalOccurrences g) 0,
    nodup_placed (fun m n x y heq => Place.func.inj heq)
      (fun f _ => nodup_functionOccurrences f) 0, ?_⟩
  rintro _ hx ⟨place, x⟩ hy rfl
  obtain ⟨_, _, _, -, -, rfl⟩ := mem_placed.mp hx
  obtain ⟨_, _, _, -, -, heq⟩ := mem_placed.mp hy
  cases heq

/-! ## Sound programs -/

/-- The conditions that verification stands for, without places. -/
structure Sound (p : Program) : Prop where
  functionNames : ∀ f ∈ p.functions, f.name ≠ ""
  globalNames : ∀ g ∈ p.globals, g.name ≠ ""
  initialSymbols : ∀ g ∈ p.globals, ∀ c, g.initial = some c → ∀ path s, c.Mentions path s → p.Has s
  operandSymbols : ∀ f ∈ p.functions, ∀ i ∈ f.instrs, ∀ v ∈ i.operands,
    ∀ path s, v.Mentions path s → p.Has s
  definedRegs : ∀ f ∈ p.functions, ∀ i ∈ f.instrs, ∀ v ∈ i.operands,
    ∀ r, v.Reads r → ∃ n, f.DefinesAt n r
  definedOnce : ∀ f ∈ p.functions, ∀ m n r, f.DefinesAt m r → f.DefinesAt n r → m = n
  voidUnbound : ∀ f ∈ p.functions, ∀ c, .call c ∈ f.instrs → c.ret = .void → c.result = none

theorem sound_iff_not_violates : p.Sound ↔ ∀ place x, ¬ p.Violates place x := by
  constructor
  · intro hp place x hx
    cases hx with
    | global hg hx =>
        have hg := List.mem_of_getElem? hg
        cases hx with
        | unnamed hname => exact hp.globalNames _ hg hname
        | unknownSymbol hc hs hno => exact hno (hp.initialSymbols _ hg _ hc _ _ hs)
    | func hf hx =>
        have hf := List.mem_of_getElem? hf
        cases hx with
        | unnamed hname => exact hp.functionNames _ hf hname
        | redefinedReg hmn hm hn => exact Nat.ne_of_lt hmn (hp.definedOnce _ hf _ _ _ hm hn)
        | voidResult hc hret hresult =>
            have hnone := hp.voidUnbound _ hf _ (List.mem_of_getElem? hc) hret
            exact nomatch hresult.symm.trans hnone
        | unknownSymbol hi hv hs hno =>
            exact hno (hp.operandSymbols _ hf _ (List.mem_of_getElem? hi) _
              (List.mem_of_getElem? hv) _ _ hs)
        | undefinedReg hi hv hr hno =>
            obtain ⟨m, hm⟩ := hp.definedRegs _ hf _ (List.mem_of_getElem? hi) _
              (List.mem_of_getElem? hv) _ hr
            exact hno m hm
  · intro hno
    have hglobal : ∀ g ∈ p.globals, ∀ place x, ¬ g.Violates p place x := by
      intro g hg place x hx
      obtain ⟨n, hn⟩ := List.mem_iff_getElem?.mp hg
      exact hno _ _ (.global hn hx)
    have hfunc : ∀ f ∈ p.functions, ∀ place x, ¬ f.Violates p place x := by
      intro f hf place x hx
      obtain ⟨n, hn⟩ := List.mem_iff_getElem?.mp hf
      exact hno _ _ (.func hn hx)
    constructor
    case functionNames => exact fun f hf hname => hfunc f hf _ _ (.unnamed hname)
    case globalNames => exact fun g hg hname => hglobal g hg _ _ (.unnamed hname)
    case initialSymbols =>
      intro g hg c hc path s hs
      by_contra hhas
      exact hglobal g hg _ _ (.unknownSymbol hc hs hhas)
    case operandSymbols =>
      intro f hf i hi v hv path s hs
      obtain ⟨n, hn⟩ := List.mem_iff_getElem?.mp hi
      obtain ⟨k, hk⟩ := List.mem_iff_getElem?.mp hv
      by_contra hhas
      exact hfunc f hf _ _ (.unknownSymbol hn hk hs hhas)
    case definedRegs =>
      intro f hf i hi v hv r hr
      obtain ⟨n, hn⟩ := List.mem_iff_getElem?.mp hi
      obtain ⟨k, hk⟩ := List.mem_iff_getElem?.mp hv
      by_contra hnot
      exact hfunc f hf _ _ (.undefinedReg hn hk hr fun m hm => hnot ⟨m, hm⟩)
    case definedOnce =>
      intro f hf m n r hm hn
      rcases Nat.lt_trichotomy m n with hlt | heq | hgt
      · exact absurd (.redefinedReg hlt hm hn) (hfunc f hf _ _)
      · exact heq
      · exact absurd (.redefinedReg hgt hn hm) (hfunc f hf _ _)
    case voidUnbound =>
      intro f hf c hc hret
      obtain ⟨n, hn⟩ := List.mem_iff_getElem?.mp hc
      cases hresult : c.result with
      | none => rfl
      | some r => exact absurd (.voidResult hn hret hresult) (hfunc f hf _ _)

theorem findings_eq_nil_iff_sound : p.findings = [] ↔ p.Sound := by
  rw [sound_iff_not_violates, ← map_snd_occurrences, List.map_eq_nil_iff,
    List.eq_nil_iff_forall_not_mem]
  simp only [← mem_occurrences, Prod.forall]

theorem verify_eq_ok_iff_sound : p.verify = .ok () ↔ p.Sound := by
  rw [verify_eq_ok_iff, ← findings_eq_nil_iff, findings_eq_nil_iff_sound]

theorem verify_of_not_sound (h : ¬ p.Sound) :
    p.verify = .error (.malformedProgram p.findings) := by
  rw [verify, if_neg fun hnil => h (findings_eq_nil_iff_sound.mp hnil)]

/-! ## The number of redefinitions -/

theorem redefinedReg_mem_functionFindings {f : Func} {owner : String} {r : Reg}
    (h : .redefinedReg owner r ∈ p.functionFindings f) : f.name = owner := by
  rw [← map_snd_functionOccurrences] at h
  obtain ⟨⟨place, _⟩, hx, rfl⟩ := List.mem_map.mp h
  cases mem_functionOccurrences.mp hx with
  | redefinedReg => rfl

theorem redefinedReg_not_mem_globalFindings {g : Global} {owner : String} {r : Reg} :
    .redefinedReg owner r ∉ p.globalFindings g := by
  rw [← map_snd_globalOccurrences]
  intro h
  obtain ⟨⟨place, _⟩, hx, rfl⟩ := List.mem_map.mp h
  cases mem_globalOccurrences.mp hx

theorem count_functionFindings (f : Func) (r : Reg) :
    (p.functionFindings f).count (.redefinedReg f.name r) = f.definedRegs.count r - 1 := by
  have hname : .redefinedReg f.name r ∉ nameFindings f.name := fun h =>
    nomatch (mem_nameFindings.mp h).2
  have hbody : .redefinedReg f.name r ∉ f.instrs.flatMap fun i =>
      i.resultFindings f.name ++ i.operands.flatMap (p.operandFindings f.name f.definedRegs) := by
    intro h
    obtain ⟨i, -, h⟩ := List.mem_flatMap.mp h
    rcases List.mem_append.mp h with h | h
    · obtain ⟨_, _, -, -, -, heq⟩ := mem_resultFindings.mp h
      cases heq
    · obtain ⟨v, -, h⟩ := List.mem_flatMap.mp h
      rw [← map_snd_operandOccurrences] at h
      obtain ⟨⟨path, _⟩, hx, rfl⟩ := List.mem_map.mp h
      rcases mem_operandOccurrences.mp hx with ⟨_, -, -, heq⟩ | ⟨_, -, -, -, heq⟩
      · cases heq
      · cases heq
  have hinj : Function.Injective (Finding.redefinedReg f.name) := fun _ _ heq =>
    (Finding.redefinedReg.inj heq).2
  rw [functionFindings, List.count_append, List.count_append, List.count_eq_zero_of_not_mem hname,
    List.count_eq_zero_of_not_mem hbody, List.count_map_of_injective _ _ hinj, count_repeated,
    if_neg List.not_mem_nil, Nat.zero_add, Nat.add_zero]

theorem count_findings (hkeyed : p.Keyed) {f : Func} (hf : f ∈ p.functions) (r : Reg) :
    p.findings.count (.redefinedReg f.name r) = f.definedRegs.count r - 1 := by
  have hglobals : .redefinedReg f.name r ∉ p.globals.flatMap p.globalFindings := by
    intro h
    obtain ⟨g, -, h⟩ := List.mem_flatMap.mp h
    exact redefinedReg_not_mem_globalFindings h
  -- Every other function has another name, and a finding carries the name of its function.
  have hothers : ∀ fs : List Func, (∀ f' ∈ fs, f'.name ≠ f.name) →
      (fs.flatMap p.functionFindings).count (.redefinedReg f.name r) = 0 := by
    intro fs hfs
    refine List.count_eq_zero_of_not_mem fun h => ?_
    obtain ⟨f', hf', h⟩ := List.mem_flatMap.mp h
    exact hfs f' hf' (redefinedReg_mem_functionFindings h)
  obtain ⟨before, after, hsplit⟩ := List.append_of_mem hf
  have hnames := hkeyed.1
  rw [hsplit, List.map_append, List.map_cons, List.nodup_append, List.nodup_cons] at hnames
  obtain ⟨-, ⟨hafter, -⟩, hbefore⟩ := hnames
  rw [findings, hsplit, List.flatMap_append, List.flatMap_cons, List.count_append,
    List.count_append, List.count_append, List.count_eq_zero_of_not_mem hglobals, count_functionFindings,
    hothers before fun f' hf' => hbefore _ (List.mem_map_of_mem hf') _ List.mem_cons_self,
    hothers after fun f' hf' heq => hafter (heq ▸ List.mem_map_of_mem hf')]
  omega

/-! ## What verification reports -/

/-- Verification accepts exactly the sound programs, and of any other it reports
one finding for every violation and no more. The redefinitions of a register are
one less than its definitions. -/
theorem verify_reports_violations {p : Program} (hkeyed : p.Keyed) :
    (p.verify = .ok () ↔ p.Sound) ∧
    (¬ p.Sound → p.verify = .error (.malformedProgram p.findings)) ∧
    (∃ found : List (Place × Finding), found.Nodup ∧
      (∀ place x, (place, x) ∈ found ↔ p.Violates place x) ∧ p.findings = found.map Prod.snd) ∧
    ∀ f ∈ p.functions, ∀ r,
      p.findings.count (.redefinedReg f.name r) = f.definedRegs.count r - 1 :=
  ⟨verify_eq_ok_iff_sound, verify_of_not_sound,
    ⟨p.occurrences, nodup_occurrences, fun _ _ => mem_occurrences, map_snd_occurrences.symm⟩,
    fun _ hf r => count_findings hkeyed hf r⟩

/-- A program with two equal findings: the missing function is called twice. -/
def vanishing : Program where
  functions := [
    { name := "main", ret := .void, body := some [
      { label := "entry", instrs := [
        .call ⟨some ⟨0⟩, .void, .func "lost", []⟩,
        .op (some ⟨0⟩) (.int 8) "add" [.cast (.reg ⟨1⟩) (.int 8)],
        .call ⟨some ⟨0⟩, .int 8, .cast (.func "lost") .bytePtr, []⟩,
        .ret none] }] }]
  globals := [
    { name := "table", ty := .array .bytePtr 2,
      initial := some (.array .bytePtr [.null .bytePtr, .bitcast (.globalAddr "gone") .bytePtr]) }]

theorem verify_reports_violations_vanishing :
    vanishing.Keyed ∧ ¬ vanishing.Sound ∧
    vanishing.findings.count (.redefinedReg "main" ⟨0⟩) = 2 ∧
    vanishing.verify = .error (.malformedProgram [
      .unknownSymbol "table" (.global "gone"), .redefinedReg "main" ⟨0⟩, .redefinedReg "main" ⟨0⟩,
      .voidResult "main" (.func "lost"), .unknownSymbol "main" (.func "lost"),
      .undefinedReg "main" ⟨1⟩, .unknownSymbol "main" (.func "lost")]) := by
  have hkeyed : vanishing.Keyed := by decide
  obtain ⟨hok, hreport, -, hcount⟩ := verify_reports_violations hkeyed
  have hbad : ¬ vanishing.Sound := fun h => nomatch hok.mpr h
  exact ⟨hkeyed, hbad, hcount _ List.mem_cons_self ⟨0⟩, hreport hbad⟩

end Program

end ClosedWorld

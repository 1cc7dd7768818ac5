import ClosedWorld.Proofs.Decoded
import ClosedWorld.Proofs.Provenance
import ClosedWorld.Proofs.Zeros

/-!
# What a run writes

A program that was read from a text nests no deeper than a decoder goes. A run
keeps that of everything but zeros: the zero of a type is one container deeper
than the type, and it stands where a register or nothing stood before, under
whatever casts and containers are there. So what a run writes can be too deep to
be read back, and if it is, a zero is the reason (`Program.ZerosInReach`).

How deep can it get? A zero in an operand is no deeper than a type in the
program, and the operand itself was no deeper than the program, so at worst the
depth about doubles. Programs of half the depth that a decoder goes are safe.
-/

namespace ClosedWorld

/-! ## Zeros -/

/-- The operand is a zero, casts aside. -/
def Operand.IsZero (v : Operand) : Prop := ∃ c, v.core = .const c ∧ c.isZero = true

/-- One of the operands is a zero. -/
def Instr.HasZero (i : Instr) : Prop := ∃ v ∈ i.operands, v.IsZero

/-- The initial value is a zero. -/
def Global.StartsAtZero (g : Global) : Prop := ∃ c, g.initial = some c ∧ c.isZero = true

namespace Constant

variable {ty : Ty} {zero : Constant}

theorem doubles_zeroOf? (h : zeroOf? ty = some zero) : ∀ x ∈ zero.doubles, x = .zero := by
  cases ty with
  | float | double =>
      cases h
      exact fun x hx => List.mem_singleton.mp hx
  | void | func => cases h
  | int | ptr | array | struct =>
      cases h
      exact nofun

theorem depth_zeroOf?_le {d : Nat} (h : zeroOf? ty = some zero) (hty : ty.toJson.depth ≤ d + 1) :
    zero.toJson.depth ≤ d + 2 := by
  cases ty with
  | int | float | double =>
      -- A number is a record under a tag, whatever its type.
      cases h
      rw [toJson, Json.depth_tagged_le, Json.depth_record_le]
      simp [Ty.toJson, Double.depth_toJson]
  | void | func => cases h
  | ptr | array | struct =>
      cases h
      rwa [toJson, Json.depth_tagged_le]

end Constant

theorem Double.readBack_zero : Double.zero.ReadBack := by decide +kernel

/-! ## Zeros for registers -/

namespace Operand

/-- A substitution changes nothing, or it puts a constant for the register under
the casts. -/
theorem substitute_cases (σ : Reg → Option Constant) (v : Operand) :
    v.substitute σ = v ∨ ∃ r c, σ r = some c ∧ (v.substitute σ).core = .const c ∧
      (v.substitute σ).doubles = c.doubles := by
  induction v with
  | reg r =>
      cases hr : σ r with
      | none => exact Or.inl (by rw [substitute, hr])
      | some c =>
          have hconst : (Operand.reg r).substitute σ = .const c := by rw [substitute, hr]
          rw [hconst]
          exact Or.inr ⟨r, c, hr, rfl, rfl⟩
  | cast value ty ih =>
      rcases ih with heq | ⟨r, c, hr, hcore, hdoubles⟩
      · exact Or.inl (by rw [substitute, heq])
      · exact Or.inr ⟨r, c, hr, hcore, hdoubles⟩
  | func | global | arg | const | asm => exact Or.inl rfl

theorem depth_toJson_cast (value : Operand) (ty : Ty) :
    (cast value ty).toJson.depth = max value.toJson.depth ty.toJson.depth + 2 := by
  simp [toJson, Json.tagged, Json.record, Json.depth, Json.depthMembers]

theorem depth_substitute_le {σ : Reg → Option Constant} {k : Nat}
    (hσ : ∀ r c, σ r = some c → c.toJson.depth ≤ k) (v : Operand) :
    (v.substitute σ).toJson.depth ≤ v.toJson.depth + k := by
  induction v with
  | reg r =>
      cases hr : σ r with
      | none =>
          rw [substitute, hr]
          exact Nat.le_add_right _ k
      | some c =>
          have hreg : (Operand.reg r).toJson.depth = 1 := rfl
          have hconst : (Operand.reg r).substitute σ = .const c := by rw [substitute, hr]
          rw [hconst, hreg, Nat.add_comm, toJson, Json.depth_tagged_le]
          exact hσ r c hr
  | cast value ty ih =>
      rw [substitute, depth_toJson_cast, depth_toJson_cast]
      omega
  | func | global | arg | const | asm => exact Nat.le_add_right _ k

end Operand

namespace Instr

theorem mapOperands_eq_self {i : Instr} {g : Operand → Operand} (h : ∀ v ∈ i.operands, g v = v) :
    i.mapOperands g = i := by
  have hmap {vs : List Operand} (hvs : ∀ v ∈ vs, g v = v) : vs.map g = vs :=
    (List.map_congr_left hvs).trans (List.map_id' vs)
  cases i with
  | call c =>
      obtain ⟨hcallee, hargs⟩ := List.forall_mem_cons.mp h
      rw [mapOperands, Call.mapOperands, hcallee, hmap hargs]
  | op result ty opcode operands =>
      have hoperands : operands.map g = operands := hmap h
      rw [mapOperands, hoperands]
  | store value target =>
      obtain ⟨hvalue, htarget⟩ := List.forall_mem_cons.mp h
      rw [mapOperands, hvalue, List.forall_mem_singleton.mp htarget]
  | ret value =>
      cases value with
      | none => rfl
      | some v => rw [mapOperands, Option.map_some, List.forall_mem_singleton.mp h]

theorem mapOperands_cases (i : Instr) (g : Operand → Operand) :
    i.mapOperands g = i ∨ ∃ v ∈ i.operands, g v ≠ v := by
  by_cases h : ∀ v ∈ i.operands, g v = v
  · exact Or.inl (mapOperands_eq_self h)
  · simp only [Classical.not_forall] at h
    obtain ⟨v, hv, hne⟩ := h
    exact Or.inr ⟨v, hv, hne⟩

theorem depth_call_le {c : Call} {d : Nat} :
    (call c).toJson.depth ≤ d + 3 ↔
      c.ret.toJson.depth ≤ d + 1 ∧ c.callee.toJson.depth ≤ d + 1 ∧
        ∀ v ∈ c.args, v.toJson.depth ≤ d := by
  rw [toJson, Call.toJson, Json.depth_tagged_le, Json.depth_record_le]
  simp [Json.depth_list_le]

theorem depth_op_le {result : Option Reg} {ty : Ty} {opcode : String} {operands : List Operand}
    {d : Nat} :
    (op result ty opcode operands).toJson.depth ≤ d + 3 ↔
      ty.toJson.depth ≤ d + 1 ∧ ∀ v ∈ operands, v.toJson.depth ≤ d := by
  rw [toJson, Json.depth_tagged_le, Json.depth_record_le]
  simp [Json.depth_list_le]

theorem depth_store_le {value target : Operand} {d : Nat} :
    (store value target).toJson.depth ≤ d + 2 ↔
      value.toJson.depth ≤ d ∧ target.toJson.depth ≤ d := by
  rw [toJson, Json.depth_tagged_le, Json.depth_record_le]
  simp

theorem depth_ret_le {value : Option Operand} {d : Nat} :
    (ret value).toJson.depth ≤ d + 1 ↔ ∀ v, value = some v → v.toJson.depth ≤ d := by
  rw [toJson, Json.depth_tagged_le, Json.depth_option_le]

/-- Operands that get deeper make the instruction deeper, by no more than they
do themselves. -/
theorem depth_mapOperands_le {i : Instr} {g : Operand → Operand} {d k : Nat}
    (hg : ∀ v, (g v).toJson.depth ≤ v.toJson.depth + k) (h : i.toJson.depth ≤ d + 3) :
    (i.mapOperands g).toJson.depth ≤ d + k + 3 := by
  have hoperand {v : Operand} {e : Nat} (hv : v.toJson.depth ≤ e) : (g v).toJson.depth ≤ e + k :=
    Nat.le_trans (hg v) (Nat.add_le_add_right hv k)
  cases i with
  | call c =>
      obtain ⟨hret, hcallee, hargs⟩ := depth_call_le.mp h
      refine depth_call_le.mpr ⟨Nat.le_trans hret (by omega), ?_, ?_⟩
      · exact Nat.add_right_comm d k 1 ▸ hoperand hcallee
      · exact List.forall_mem_map.mpr fun v hv => hoperand (hargs v hv)
  | op result ty opcode operands =>
      obtain ⟨hty, hoperands⟩ := depth_op_le.mp h
      refine depth_op_le.mpr ⟨Nat.le_trans hty (by omega), ?_⟩
      exact List.forall_mem_map.mpr fun v hv => hoperand (hoperands v hv)
  | store value target =>
      obtain ⟨hvalue, htarget⟩ := depth_store_le.mp h
      refine depth_store_le.mpr ⟨?_, ?_⟩
      · exact Nat.add_right_comm d k 1 ▸ hoperand hvalue
      · exact Nat.add_right_comm d k 1 ▸ hoperand htarget
  | ret value =>
      refine depth_ret_le.mpr fun w hw => ?_
      obtain ⟨v, hv, rfl⟩ := Option.map_eq_some_iff.mp hw
      exact Nat.add_right_comm d k 2 ▸ hoperand (depth_ret_le.mp h v hv)

end Instr

/-! ## Functions -/

namespace Func

theorem depth_toJson_le {f : Func} {d : Nat} :
    f.toJson.depth ≤ d + 4 ↔
      f.ret.toJson.depth ≤ d + 3 ∧ (Json.list Ty.toJson f.params).depth ≤ d + 3 ∧
        ∀ i ∈ f.instrs, i.toJson.depth ≤ d := by
  have hbody : (Json.option (Json.list Block.toJson) f.body).depth ≤ d + 3 ↔
      ∀ i ∈ f.instrs, i.toJson.depth ≤ d := by
    have hblock (b : Block) : b.toJson.depth ≤ d + 2 ↔ ∀ i ∈ b.instrs, i.toJson.depth ≤ d := by
      rw [Block.toJson, Json.depth_record_le]
      simp [Json.depth_list_le]
    rw [instrs, blocks, List.forall_mem_flatMap]
    cases f.body with
    | none => simp [Json.option, Json.depth]
    | some bs =>
        rw [Json.option, Json.depth_list_le]
        simp only [hblock, Option.getD_some]
  rw [toJson, Json.depth_record_le, ← hbody]
  simp

variable {f f' : Func} {c : Constant}

theorem HasReturnZero.isZero (h : f.HasReturnZero c) : c.isZero = true := by
  obtain ⟨call, -, hzero⟩ := h
  exact Constant.isZero_zeroOf? hzero

theorem HasReturnZero.depth_le (h : f.HasReturnZero c) {d : Nat}
    (hf : ∀ i ∈ f.instrs, i.toJson.depth ≤ d + 3) : c.toJson.depth ≤ d + 2 := by
  obtain ⟨call, hcall, hzero⟩ := h
  obtain ⟨i, hi, hcall⟩ := List.mem_filterMap.mp hcall
  cases i with
  | call c' =>
      cases hcall
      exact Constant.depth_zeroOf?_le hzero (Instr.depth_call_le.mp (hf _ hi)).1
  | op | store | ret => cases hcall

/-- What is in a function was there before, or a zero has been put into it. -/
theorem Yields.mem_or_hasZero (h : f.Yields f') {i' : Instr} (hi' : i' ∈ f'.instrs) :
    i' ∈ f.instrs ∨ i'.HasZero := by
  obtain ⟨σ, hσ, hinstrs⟩ := h.instrs
  obtain ⟨i, hi, rfl⟩ := hinstrs i' hi'
  rcases i.mapOperands_cases (·.substitute σ) with hsame | ⟨v, hv, hne⟩
  · rw [hsame]
    exact Or.inl hi
  · obtain ⟨r, c, hc, hcore, -⟩ := (v.substitute_cases σ).resolve_left hne
    refine Or.inr ⟨v.substitute σ, ?_, c, hcore, (hσ r c hc).isZero⟩
    rw [Instr.operands_mapOperands]
    exact List.mem_map_of_mem hv

theorem Yields.doubles (h : f.Yields f') {x : Double} (hx : x ∈ f'.doubles) :
    x ∈ f.doubles ∨ x = .zero := by
  obtain ⟨σ, hσ, hinstrs⟩ := h.instrs
  obtain ⟨i', hi', hx⟩ := List.mem_flatMap.mp hx
  obtain ⟨i, hi, rfl⟩ := hinstrs i' hi'
  obtain ⟨w, hw, hx⟩ := List.mem_flatMap.mp hx
  rw [Instr.operands_mapOperands] at hw
  obtain ⟨v, hv, rfl⟩ := List.mem_map.mp hw
  rcases v.substitute_cases σ with hsame | ⟨r, c, hc, -, hdoubles⟩
  · rw [hsame] at hx
    exact Or.inl (List.mem_flatMap.mpr ⟨i, hi, List.mem_flatMap.mpr ⟨v, hv, hx⟩⟩)
  · rw [hdoubles] at hx
    obtain ⟨call, -, hzero⟩ := hσ r c hc
    exact Or.inr (Constant.doubles_zeroOf? hzero x hx)

/-- The zeros in a function are hardly deeper than its types, so they at most
double its depth. -/
theorem Yields.depth_le (h : f.Yields f') {d : Nat} (hf : f.toJson.depth ≤ d + 7) :
    f'.toJson.depth ≤ 2 * d + 9 := by
  obtain ⟨hret, hparams, hold⟩ := depth_toJson_le.mp hf
  refine depth_toJson_le.mpr ⟨?_, ?_, ?_⟩
  · rw [h.ret]
    omega
  · rw [h.params]
    omega
  · intro i' hi'
    obtain ⟨σ, hσ, hinstrs⟩ := h.instrs
    obtain ⟨i, hi, rfl⟩ := hinstrs i' hi'
    -- What a call returns is written inside the call, and its zero is deeper by one.
    have hzeros : ∀ r c, σ r = some c → c.toJson.depth ≤ d + 2 := fun r c hc =>
      (hσ r c hc).depth_le hold
    have hdepth : 2 * d + 5 = d + (d + 2) + 3 := by omega
    rw [hdepth]
    exact Instr.depth_mapOperands_le (Operand.depth_substitute_le hzeros) (hold i hi)

end Func

/-! ## Globals -/

namespace Global

theorem depth_toJson_le {g : Global} {d : Nat} :
    g.toJson.depth ≤ d + 1 ↔
      g.ty.toJson.depth ≤ d ∧ ∀ c, g.initial = some c → c.toJson.depth ≤ d := by
  rw [toJson, Json.depth_record_le, ← Json.depth_option_le]
  simp

theorem depth_zeroed_le {g : Global} {d : Nat} (h : g.toJson.depth ≤ d + 2) :
    g.zeroed.toJson.depth ≤ d + 3 := by
  rcases g.zeroed_cases with heq | ⟨zero, hzero, heq⟩
  · rw [heq]
    exact Nat.le_succ_of_le h
  · have hty := (depth_toJson_le.mp h).1
    rw [heq]
    refine depth_toJson_le.mpr ⟨Nat.le_succ_of_le hty, ?_⟩
    rintro _ ⟨⟩
    exact Constant.depth_zeroOf?_le hzero hty

theorem doubles_zeroed {g : Global} {x : Double} (hx : x ∈ g.zeroed.doubles) :
    x ∈ g.doubles ∨ x = .zero := by
  rcases g.zeroed_cases with heq | ⟨zero, hzero, heq⟩
  · exact Or.inl (heq ▸ hx)
  · rw [heq] at hx
    obtain ⟨c, hc, hx⟩ := List.mem_flatMap.mp hx
    cases Option.mem_toList.mp hc
    exact Or.inr (Constant.doubles_zeroOf? hzero x hx)

end Global

theorem Config.depth_entryTableGlobal (c : Config) : c.entryTableGlobal.toJson.depth = 8 := rfl

/-! ## Programs -/

namespace Program

variable {c : Config} {p q : Program}

theorem depth_le_iff {d : Nat} :
    p.toJson.depth ≤ d + 2 ↔
      (∀ f ∈ p.functions, f.toJson.depth ≤ d) ∧ ∀ g ∈ p.globals, g.toJson.depth ≤ d := by
  rw [depth_toJson_le, Json.depth_list_le, Json.depth_list_le]

theorem Yields.doubles (h : p.Yields c q) {x : Double} (hx : x ∈ q.doubles) :
    x ∈ p.doubles ∨ x = .zero := by
  rcases List.mem_append.mp hx with hx | hx
  · obtain ⟨g', hg', hx⟩ := List.mem_flatMap.mp hx
    have hold {g : Global} (hg : g ∈ p.globals) (hx : x ∈ g.doubles) : x ∈ p.doubles :=
      List.mem_append_left _ (List.mem_flatMap.mpr ⟨g, hg, hx⟩)
    rcases h.globals g' hg' with rfl | ⟨g, hg, rfl | rfl⟩
    · cases hx
    · exact Or.inl (hold hg hx)
    · exact (Global.doubles_zeroed hx).imp_left (hold hg)
  · obtain ⟨f', hf', hx⟩ := List.mem_flatMap.mp hx
    obtain ⟨f, hf, hyields⟩ := h.functions f' hf'
    refine (hyields.doubles hx).imp_left fun hx => ?_
    exact List.mem_append_right _ (List.mem_flatMap.mpr ⟨f, hf, hx⟩)

theorem Yields.depth_le (h : p.Yields c q) {d : Nat} (hp : p.toJson.depth ≤ d + 9) :
    q.toJson.depth ≤ 2 * d + 11 := by
  obtain ⟨hfunctions, hglobals⟩ := depth_le_iff.mp hp
  refine depth_le_iff.mpr ⟨?_, ?_⟩
  · intro f' hf'
    obtain ⟨f, hf, hyields⟩ := h.functions f' hf'
    exact hyields.depth_le (hfunctions f hf)
  · intro g' hg'
    rcases h.globals g' hg' with rfl | ⟨g, hg, rfl | rfl⟩
    · rw [c.depth_entryTableGlobal]
      omega
    · exact Nat.le_trans (hglobals _ hg) (by omega)
    · exact Nat.le_trans (Global.depth_zeroed_le (hglobals g hg)) (by omega)

/-- Every zero stands where a decoder gets to. There are two containers around a
global and six around an instruction. -/
structure ZerosInReach (p : Program) : Prop where
  globals : ∀ g ∈ p.globals, g.StartsAtZero → g.toJson.depth ≤ maxDepth - 2
  functions : ∀ f ∈ p.functions, ∀ i ∈ f.instrs, i.HasZero → i.toJson.depth ≤ maxDepth - 6

/-- What comes of a program that nests no deeper than a decoder goes nests no
deeper either, but for its zeros. -/
theorem Yields.depth_le_maxDepth_iff (h : p.Yields c q) (hp : p.toJson.depth ≤ maxDepth) :
    q.toJson.depth ≤ maxDepth ↔ q.ZerosInReach := by
  obtain ⟨hfunctions, hglobals⟩ := (depth_le_iff (d := maxDepth - 2)).mp hp
  refine (depth_le_iff (d := maxDepth - 2)).trans ⟨fun hq => ⟨fun g hg _ => hq.2 g hg, ?_⟩, ?_⟩
  · intro f hf i hi _
    exact ((Func.depth_toJson_le (d := maxDepth - 6)).mp (hq.1 f hf)).2.2 i hi
  · intro hzeros
    refine ⟨?_, ?_⟩
    · intro f' hf'
      obtain ⟨f, hf, hyields⟩ := h.functions f' hf'
      obtain ⟨hret, hparams, hold⟩ :=
        (Func.depth_toJson_le (d := maxDepth - 6)).mp (hfunctions f hf)
      refine (Func.depth_toJson_le (d := maxDepth - 6)).mpr
        ⟨hyields.ret ▸ hret, hyields.params ▸ hparams, fun i' hi' => ?_⟩
      rcases hyields.mem_or_hasZero hi' with hi | hzero
      · exact hold i' hi
      · exact hzeros.functions f' hf' i' hi' hzero
    · intro g' hg'
      rcases h.globals g' hg' with rfl | ⟨g, hg, rfl | rfl⟩
      · rw [c.depth_entryTableGlobal]
        decide
      · exact hglobals _ hg
      · rcases g.zeroed_cases with heq | ⟨zero, hzero, heq⟩
        · rw [heq]
          exact hglobals g hg
        · refine hzeros.globals _ hg' ⟨zero, ?_, Constant.isZero_zeroOf? hzero⟩
          rw [heq]

end Program

/-! ## Runs -/

namespace Config

/-- **What is written is read back, but for deep zeros.** The output of a run on
a program that a text described is read back as it is, if its zeros are in reach
of a decoder, and it is refused if they are not. They are in reach whenever the
input nests at most 67 deep. That a finite double survives its text is assumed of
those in the input. -/
theorem decode_encode_of_run {c : Config} {text : String} {m : Program} {report : Report}
    (hm : Program.decode text = .ok m) (hread : ∀ x ∈ m.doubles, x.isFinite = true → x.ReadBack)
    (h : (c.run m).result = .ok report) :
    ((c.run m).program.ZerosInReach →
        Program.decode (c.run m).program.encode = .ok (c.run m).program) ∧
      (¬ (c.run m).program.ZerosInReach →
        Program.decode (c.run m).program.encode = .error .malformed) ∧
      (m.toJson.depth ≤ 67 → (c.run m).program.ZerosInReach) := by
  obtain ⟨hkeyed, hdepth, hfinite⟩ := Program.decoded_of_decode hm
  have hyields := yields_run hkeyed h
  have hdoubles : ∀ x ∈ (c.run m).program.doubles, x.ReadBack := by
    intro x hx
    rcases hyields.doubles hx with hx | rfl
    · exact hread x hx (hfinite x hx)
    · exact Double.readBack_zero
  have hreach := hyields.depth_le_maxDepth_iff hdepth
  rw [Program.decode_encode hyields.keyed hdoubles]
  refine ⟨fun hzeros => if_pos (hreach.mpr hzeros), fun hzeros => if_neg (mt hreach.mp hzeros), ?_⟩
  exact fun hshallow => hreach.mp (hyields.depth_le (d := 58) hshallow)

/-- A program in which a zero goes under a cast, and another one into storage. -/
def hauling : Program where
  functions := [
    { name := "weigh", ret := .double },
    { name := "main", ret := .void, body := some [
      { label := "entry", instrs := [
        .call ⟨some ⟨0⟩, .double, .func "weigh", []⟩,
        .store (.cast (.reg ⟨0⟩) (.int 64)) (.global "load"),
        .ret none] }] }]
  globals := [{ name := "load", ty := .struct [.int 64, .ptr (.int 8)] }]

theorem decode_encode_of_run_hauling :
    let c : Config := {}
    let q : Program := (c.run hauling).program
    Program.decode hauling.encode = .ok hauling ∧ (c.run hauling).result.isOk = true ∧
      hauling.toJson.depth = 11 ∧ q.toJson.depth = 13 ∧ Program.decode q.encode = .ok q := by
  intro c q
  have hin : hauling.Keyed ∧ (∀ x ∈ hauling.doubles, x.ReadBack) ∧
      hauling.toJson.depth ≤ maxDepth := by decide +kernel
  have hm : Program.decode hauling.encode = .ok hauling := by
    rw [Program.decode_encode hin.1 hin.2.1, if_pos hin.2.2]
  have hok : (c.run hauling).result.isOk = true := by decide +kernel
  have hread : ∀ x ∈ hauling.doubles, x.isFinite = true → x.ReadBack := by decide +kernel
  have hdepth : hauling.toJson.depth = 11 ∧ q.toJson.depth = 13 := by decide +kernel
  cases h : (c.run hauling).result with
  | error e =>
      rw [h] at hok
      cases hok
  | ok report =>
      obtain ⟨hback, -, hshallow⟩ := decode_encode_of_run hm hread h
      exact ⟨hm, rfl, hdepth.1, hdepth.2, hback (hshallow (by rw [hdepth.1]; decide))⟩

/-- A byte under pointers. -/
def pointers : Nat → Ty
  | 0 => .int 8
  | n + 1 => .ptr (pointers n)

/-- A register under casts. -/
def casts : Nat → Operand
  | 0 => .reg ⟨0⟩
  | n + 1 => .cast (casts n) (.int 64)

/-- A program in which a null pointer, as deep as its type, goes under casts that
are as many. -/
def stacking : Program where
  functions := [
    { name := "heap", ret := pointers 59 },
    { name := "main", ret := .void, body := some [
      { label := "entry", instrs := [
        .call ⟨some ⟨0⟩, pointers 59, .func "heap", []⟩,
        .op none .void "use" [casts 29],
        .ret none] }] }]

/-- A program that nests 68 deep is one container too deep. -/
theorem not_decode_encode_of_run_stacking :
    let c : Config := {}
    Program.decode stacking.encode = .ok stacking ∧ stacking.toJson.depth = 68 ∧
      (c.run stacking).result.isOk = true ∧
      Program.decode (c.run stacking).program.encode = .error .malformed := by
  intro c
  have hin : stacking.Keyed ∧ stacking.doubles = [] ∧ stacking.toJson.depth = 68 := by
    decide +kernel
  have hout : (c.run stacking).program.Keyed ∧ (c.run stacking).program.doubles = [] ∧
      ¬ (c.run stacking).program.toJson.depth ≤ maxDepth := by decide +kernel
  refine ⟨?_, hin.2.2, by decide +kernel, ?_⟩
  · rw [Program.decode_encode hin.1 (hin.2.1 ▸ nofun), if_pos (by rw [hin.2.2]; decide)]
  · rw [Program.decode_encode hout.1 (hout.2.1 ▸ nofun), if_neg hout.2.2]

end Config

end ClosedWorld

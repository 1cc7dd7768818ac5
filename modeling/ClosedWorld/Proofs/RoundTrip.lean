import ClosedWorld.Proofs.Nesting
import ClosedWorld.Proofs.Reading

/-!
# What is written is read back

Every part of a program is written as a tree and decoded from one, and the two
functions are written one beside the other, so that they agree is seen one part
at a time. What has to be said with care is when. A decoder enters a limited
number of containers, and it accepts the tree of a part exactly if the tree
nests no deeper: `Json.RoundTrips` says that, and it is the same statement for a
type and for a whole function.

Doubles are the exception. Reading one rounds several times, and not every
finite double comes back as itself (`Numeral.toDouble?`). Which ones do is left
open here: `Double.ReadBack` is what is asked of the doubles in a program.
-/

namespace ClosedWorld

namespace Json

variable {α : Type}

/-- What is written of a value is decoded as that value, and as nothing else, as
soon as the depth suffices for it. -/
def RoundTrips (encode : α → Json) (decode : Nat → Json → Option α) (a : α) : Prop :=
  ∀ d b, decode d (encode a) = some b ↔ (encode a).depth ≤ d ∧ b = a

theorem RoundTrips.decode_eq_some {encode : α → Json} {decode : Nat → Json → Option α} {a : α}
    (h : RoundTrips encode decode a) {d : Nat} (hd : (encode a).depth ≤ d) :
    decode d (encode a) = some a := (h d a).mpr ⟨hd, rfl⟩

/-! ## Builders -/

theorem tagged_eq (tag : String) (value : Json) : tagged tag value = .obj [(some tag, value)] := rfl

@[simp] theorem int_ne_null {i : Int} : int i ≠ .null := nofun

@[simp] theorem arr_ne_null {items : List Json} : arr items ≠ .null := nofun

@[simp] theorem record_ne_null {members : List (String × Json)} : record members ≠ .null := nofun

@[simp] theorem text?_text (s : String) : (text s).text? = some s := rfl

@[simp] theorem bool?_bool (b : Bool) : (bool b).bool? = some b := rfl

theorem toInt?_ofInt (i : Int) : (Numeral.ofInt i).toInt? = some i := by
  rw [Numeral.toInt?, Numeral.ofInt]
  by_cases hi : i < 0
  · have hzero : i.natAbs ≠ 0 := by omega
    have hvalue : -(i.natAbs : Int) = i := by omega
    simp only [hi, hzero, hvalue, decide_true, and_false, ne_eq, not_true_eq_false, or_self,
      if_true, if_false]
  · have hvalue : (i.natAbs : Int) = i := by omega
    simp only [hi, hvalue, decide_false, Bool.false_eq_true, false_and, ne_eq, not_true_eq_false,
      or_self, if_false]

theorem int?_int {least greatest i : Int} (hleast : least ≤ i) (hgreatest : i ≤ greatest) :
    (int i).int? least greatest = some i := by
  rw [int, int?, toInt?_ofInt, Option.filter_some, if_pos]
  simp [hleast, hgreatest]

@[simp] theorem uint32?_int (n : UInt32) : (int n.toNat).uint32? = some n := by
  have hn := n.toNat_lt
  rw [uint32?, int?_int (by omega) (by simp [UInt32.size]; omega), Option.map_some,
    Int.toNat_natCast]
  simp

@[simp] theorem uint64?_int (n : UInt64) : (int n.toNat).uint64? = some n := by
  have hn := n.toNat_lt
  rw [uint64?, int?_int (by omega) (by simp [UInt64.size]; omega), Option.map_some,
    Int.toNat_natCast]
  simp

@[simp] theorem int64?_int (n : Int64) : (int n.toInt).int64? = some n := by
  rw [int64?, int?_int n.minValue_le_toInt n.toInt_le, Option.map_some, Int64.ofInt_toInt]

/-! ## Records -/

theorem filter_eq_singleton {members : List (String × Json)} (h : (members.map Prod.fst).Nodup)
    {m : String × Json} (hm : m ∈ members) : members.filter (·.1 == m.1) = [m] := by
  induction members with
  | nil => cases hm
  | cons m' members ih =>
      rw [List.map_cons, List.nodup_cons] at h
      rcases List.mem_cons.mp hm with rfl | hm
      · have hrest : members.filter (·.1 == m.1) = [] := by
          rw [List.filter_eq_nil_iff]
          intro m' hm' heq
          exact h.1 (List.mem_map.mpr ⟨m', hm', beq_iff_eq.mp heq⟩)
        rw [List.filter_cons, if_pos (beq_self_eq_true _), hrest]
      · have hne : (m'.1 == m.1) = false := by
          rw [beq_eq_false_iff_ne]
          exact fun heq => h.1 (List.mem_map.mpr ⟨m, hm, heq.symm⟩)
        rw [List.filter_cons, hne, if_neg Bool.false_ne_true, ih h.2 hm]

theorem members?_record (names : List String) (members : List (String × Json)) :
    (record members).members? names = some members := by
  rw [record, members?]
  induction members with
  | nil => rfl
  | cons m members ih => rw [List.map_cons, List.mapM_cons, ih]; rfl

section Given

variable {fields members others : List (String × Json)} {given names : List String}

theorem field?_of_perm (hnodup : (fields.map Prod.fst).Nodup)
    (hmembers : members.Perm ((fields.filter fun m => m.1 ∈ given) ++ others))
    (hothers : ∀ m ∈ others, m.1 ∉ fields.map Prod.fst) {m : String × Json} (hm : m ∈ fields) :
    field? members m.1 = some (if m.1 ∈ given then some m.2 else none) := by
  have hforeign : others.filter (·.1 == m.1) = [] := by
    rw [List.filter_eq_nil_iff]
    intro m' hm' heq
    exact hothers m' hm' (beq_iff_eq.mp heq ▸ List.mem_map_of_mem hm)
  have hown : (fields.filter fun m => m.1 ∈ given).filter (·.1 == m.1) =
      [m].filter fun m => m.1 ∈ given := by
    rw [← filter_eq_singleton hnodup hm, List.filter_filter, List.filter_filter]
    exact List.filter_congr fun _ _ => Bool.and_comm _ _
  have hperm := hmembers.filter (·.1 == m.1)
  rw [List.filter_append, hforeign, List.append_nil, hown] at hperm
  rw [field?]
  by_cases hgiven : m.1 ∈ given
  · rw [List.filter_cons_of_pos (by simpa using hgiven), List.filter_nil] at hperm
    rw [hperm.eq_singleton, if_pos hgiven]
  · rw [List.filter_cons_of_neg (by simpa using hgiven), List.filter_nil] at hperm
    rw [hperm.eq_nil, if_neg hgiven]

theorem mapM_field? {value : String × Json → Option Json}
    (h : ∀ m ∈ fields, field? members m.1 = some (value m)) :
    (fields.map Prod.fst).mapM (field? members) = some (fields.map value) := by
  induction fields with
  | nil => rfl
  | cons m fields ih =>
      obtain ⟨hm, hfields⟩ := List.forall_mem_cons.mp h
      rw [List.map_cons, List.mapM_cons, hm, ih hfields]
      rfl

/-- A record gives those of its fields that are there, in whatever order they are
and whatever else is there. -/
theorem fields?_record_of_perm (hnames : fields.map Prod.fst = names) (hnodup : names.Nodup)
    (hmembers : members.Perm ((fields.filter fun m => m.1 ∈ given) ++ others))
    (hothers : ∀ m ∈ others, m.1 ∉ names) :
    (record members).fields? names =
      some (fields.map fun m => if m.1 ∈ given then some m.2 else none) := by
  subst hnames
  rw [fields?, members?_record]
  exact mapM_field? fun _ hm => field?_of_perm hnodup hmembers hothers hm

end Given

/-- A record gives each of its fields, if no two have the same name. -/
theorem fields?_record {members : List (String × Json)} {names : List String}
    (hnames : members.map Prod.fst = names) (hnodup : names.Nodup) :
    (record members).fields? names = some (members.map fun m => some m.2) := by
  have hmem : ∀ m ∈ members, m.1 ∈ names := fun m hm => hnames ▸ List.mem_map_of_mem hm
  have hmembers : members.Perm ((members.filter fun m => m.1 ∈ names) ++ []) := by
    rw [List.append_nil, List.filter_eq_self.mpr fun m hm => decide_eq_true (hmem m hm)]
  rw [fields?_record_of_perm hnames hnodup hmembers nofun]
  exact congrArg some (List.map_congr_left fun m hm => if_pos (hmem m hm))

theorem fieldsAt?_record {members : List (String × Json)} {names : List String}
    (hnames : members.map Prod.fst = names) (hnodup : names.Nodup) (d : Nat) :
    (record members).fieldsAt? names (d + 1) = some (d, members.map fun m => some m.2) := by
  rw [fieldsAt?, fields?_record hnames hnodup, Option.map_some]

/-! ## Containers -/

section

variable {encode : α → Json} {decode : Nat → Json → Option α} {a : α} {tag : String}

/-- A value that is written as a tag round-trips if a decoder that has entered
the tag reads what is under it. -/
theorem RoundTrips.tagged {value : Json} (hencode : encode a = Json.tagged tag value)
    (hzero : decode 0 (Json.tagged tag value) = none)
    (hsucc : ∀ d b, decode (d + 1) (Json.tagged tag value) = some b ↔ value.depth ≤ d ∧ b = a) :
    RoundTrips encode decode a := by
  intro d b
  rw [hencode]
  cases d with
  | zero => simp [hzero, depth_tagged_ne_zero]
  | succ d =>
      rw [depth_tagged_le]
      exact hsucc d b

theorem RoundTrips.record {members : List (String × Json)}
    (hencode : encode a = Json.record members) (hzero : decode 0 (encode a) = none)
    (hsucc : ∀ d b, decode (d + 1) (encode a) = some b ↔
      (∀ m ∈ members, m.2.depth ≤ d) ∧ b = a) :
    RoundTrips encode decode a := by
  intro d b
  cases d with
  | zero =>
      rw [hzero, hencode]
      simp [depth_record_ne_zero]
  | succ d =>
      rw [hsucc, hencode, depth_record_le]

/-- A tagged record is two containers that a decoder enters together. -/
theorem RoundTrips.taggedRecord {members : List (String × Json)}
    (hencode : encode a = Json.tagged tag (Json.record members))
    (hzero : decode 0 (Json.tagged tag (Json.record members)) = none)
    (hone : decode 1 (Json.tagged tag (Json.record members)) = none)
    (hsucc : ∀ d b, decode (d + 2) (Json.tagged tag (Json.record members)) = some b ↔
      (∀ m ∈ members, m.2.depth ≤ d) ∧ b = a) :
    RoundTrips encode decode a := by
  refine .tagged hencode hzero fun d b => ?_
  cases d with
  | zero => simp [hone, depth_record_ne_zero]
  | succ d =>
      rw [depth_record_le]
      exact hsucc d b

end

/-! ## Lists and options -/

theorem mapM_eq_some {encode : α → Json} {decode : Nat → Json → Option α} {as : List α}
    (h : ∀ a ∈ as, RoundTrips encode decode a) {d : Nat} {bs : List α} :
    (as.map encode).mapM (decode d) = some bs ↔ (∀ a ∈ as, (encode a).depth ≤ d) ∧ bs = as := by
  induction as generalizing bs with
  | nil => simp [eq_comm]
  | cons a as ih =>
      obtain ⟨ha, has⟩ := List.forall_mem_cons.mp h
      simp only [List.map_cons, List.mapM_cons, Option.bind_eq_bind, Option.bind_eq_some_iff, ha d,
        ih has, Option.pure_def, Option.some.injEq, List.forall_mem_cons]
      constructor
      · rintro ⟨_, ⟨hd, rfl⟩, _, ⟨hds, rfl⟩, rfl⟩
        exact ⟨⟨hd, hds⟩, rfl⟩
      · rintro ⟨⟨hd, hds⟩, rfl⟩
        exact ⟨a, ⟨hd, rfl⟩, as, ⟨hds, rfl⟩, rfl⟩

theorem RoundTrips.list {encode : α → Json} {decode : Nat → Json → Option α} {as : List α}
    (h : ∀ a ∈ as, RoundTrips encode decode a) :
    RoundTrips (Json.list encode) (listAt? decode) as := by
  intro d bs
  cases d with
  | zero => simp [Json.list, listAt?, depth]
  | succ d =>
      rw [depth_list_le, ← mapM_eq_some h]
      rfl

theorem RoundTrips.option {encode : α → Json} {decode : Nat → Json → Option α} {a : Option α}
    (hnull : ∀ a, encode a ≠ .null) (h : ∀ b, a = some b → RoundTrips encode decode b) :
    RoundTrips (Json.option encode) (fun d => option? (decode d)) a := by
  intro d b
  cases a with
  | none => simp [Json.option, option?, depth, eq_comm]
  | some a =>
      have hsome : option? (decode d) (encode a) = (decode d (encode a)).map some := by
        rw [option?]
        exact hnull a
      simp only [Json.option, hsome, Option.map_eq_some_iff, h a rfl d]
      grind

end Json

/-! ## Types -/

theorem Ty.toJson_ne_null (t : Ty) : t.toJson ≠ .null := by
  cases t <;> exact nofun

theorem Ty.ofJson?_zero_tagged (tag : String) (value : Json) :
    ofJson? 0 (.tagged tag value) = none := by
  cases value <;> rfl

theorem Ty.roundTrips (t : Ty) : Json.RoundTrips toJson ofJson? t := by
  induction t with
  | void | float | double =>
      intro d b
      simp [toJson, ofJson?, Json.text, ofName?, Json.depth, eq_comm]
  | int bits =>
      refine .tagged rfl rfl fun d b => ?_
      simp [Json.tagged_eq, ofJson?]
      grind
  | ptr t ih =>
      refine .tagged rfl (ofJson?_zero_tagged "ptr" t.toJson) fun d b => ?_
      simp [Json.tagged_eq, ofJson?, toJson_ne_null, ih d]
      grind
  | array elem len ih =>
      refine .taggedRecord rfl rfl rfl fun d b => ?_
      have hfields : (Json.record [("elem", elem.toJson), ("len", .int len.toNat)]).fields?
        ["elem", "len"] = _ := Json.fields?_record rfl (by decide)
      simp [Json.tagged_eq, ofJson?, hfields, ih d, Option.bind_eq_some_iff]
      grind
  | struct fields ih =>
      refine .tagged rfl rfl fun d b => ?_
      rw [toJsonAll_eq_map]
      cases d with
      | zero => simp [Json.tagged_eq, ofJson?, Json.depth]
      | succ d =>
          rw [Json.depth_arr_le]
          simp [Json.tagged_eq, ofJson?, Json.mapM_eq_some ih, -List.mapM_map]
          grind
  | func ret params variadic ihret ihparams =>
      refine .taggedRecord rfl rfl rfl fun d b => ?_
      rw [toJsonAll_eq_map]
      cases d with
      | zero => simp [Json.tagged_eq, ofJson?, Json.depth]
      | succ d =>
          have hfields : (Json.record [("ret", ret.toJson), ("params", .arr (params.map toJson)),
            ("variadic", .bool variadic)]).fields? ["ret", "params", "variadic"] = _ :=
              Json.fields?_record rfl (by decide)
          simp [Json.tagged_eq, ofJson?, hfields, ihret (d + 1), Json.mapM_eq_some ihparams,
            Option.bind_eq_some_iff, Json.fieldOr, Json.depth_arr_le, -List.mapM_map]
          grind

/-! ## Constants -/

/-- The double comes back when it is written as data and read. -/
def Double.ReadBack (x : Double) : Prop := x.toJson.double? = some x

instance (x : Double) : Decidable x.ReadBack := inferInstanceAs (Decidable (_ = _))

theorem Double.depth_toJson (x : Double) : x.toJson.depth = 0 := by
  rw [toJson]
  cases x.numeral? Json.doubleStyle <;> rfl

mutual

/-- The doubles of a constant, from left to right. -/
def Constant.doubles : Constant → List Double
  | .float _ value => [value]
  | .bitcast value _ => doubles value
  | .array _ elems => doublesAll elems
  | _ => []

/-- The doubles of several constants, one constant after another. -/
def Constant.doublesAll : List Constant → List Double
  | [] => []
  | c :: cs => doubles c ++ doublesAll cs

end

theorem Constant.doublesAll_eq_flatMap (cs : List Constant) :
    doublesAll cs = cs.flatMap doubles := by
  induction cs with
  | nil => rfl
  | cons c cs ih => rw [doublesAll, ih, List.flatMap_cons]

theorem Constant.toJson_ne_null (c : Constant) : c.toJson ≠ .null := by
  cases c <;> exact nofun

theorem Constant.roundTrips {c : Constant} (h : ∀ x ∈ c.doubles, x.ReadBack) :
    Json.RoundTrips toJson ofJson? c := by
  induction c with
  | int bits value =>
      refine .taggedRecord rfl rfl rfl fun d b => ?_
      have hfields : (Json.record [("bits", .int bits.toNat), ("value", .int value.toInt)]).fields?
        ["bits", "value"] = _ := Json.fields?_record rfl (by decide)
      simp [Json.tagged_eq, ofJson?, hfields]
      grind
  | float ty value =>
      refine .taggedRecord rfl rfl rfl fun d b => ?_
      have hvalue : value.toJson.double? = some value := h value List.mem_cons_self
      have hfields : (Json.record [("ty", ty.toJson), ("value", value.toJson)]).fields?
        ["ty", "value"] = _ := Json.fields?_record rfl (by decide)
      simp [Json.tagged_eq, ofJson?, hfields, ty.roundTrips d, hvalue, value.depth_toJson,
        Option.bind_eq_some_iff]
      grind
  | null ty | zeroInit ty =>
      refine .tagged rfl rfl fun d b => ?_
      simp [Json.tagged_eq, ofJson?, ty.roundTrips d]
      grind
  | funcAddr name | globalAddr name =>
      refine .tagged rfl rfl fun d b => ?_
      simp [Json.tagged_eq, ofJson?]
      grind
  | bitcast value ty ih =>
      refine .taggedRecord rfl rfl rfl fun d b => ?_
      have hfields : (Json.record [("value", value.toJson), ("to", ty.toJson)]).fields?
        ["value", "to"] = _ := Json.fields?_record rfl (by decide)
      simp [Json.tagged_eq, ofJson?, hfields, ih h d, ty.roundTrips d, Option.bind_eq_some_iff]
      grind
  | array elem elems ih =>
      refine .taggedRecord rfl rfl rfl fun d b => ?_
      rw [toJsonAll_eq_map]
      have helems : ∀ c ∈ elems, Json.RoundTrips toJson ofJson? c := by
        intro c hc
        refine ih c hc fun x hx => h x ?_
        rw [doubles, doublesAll_eq_flatMap]
        exact List.mem_flatMap_of_mem hc hx
      cases d with
      | zero => simp [Json.tagged_eq, ofJson?, Json.depth]
      | succ d =>
          have hfields : (Json.record [("elem", elem.toJson),
            ("elems", .arr (elems.map toJson))]).fields? ["elem", "elems"] = _ :=
              Json.fields?_record rfl (by decide)
          simp [Json.tagged_eq, ofJson?, hfields, elem.roundTrips (d + 1),
            Json.mapM_eq_some helems, Option.bind_eq_some_iff, Json.depth_arr_le, -List.mapM_map]
          grind

/-! ## Operands -/

theorem Reg.ofJson?_toJson (r : Reg) : ofJson? r.toJson = some r := by
  rw [ofJson?, toJson, Json.uint32?_int, Option.map_some]

theorem Reg.roundTrips (r : Reg) : Json.RoundTrips toJson (fun _ => ofJson?) r := by
  intro d b
  have hdepth : r.toJson.depth ≤ d := Nat.zero_le d
  simp only [Reg.ofJson?_toJson, hdepth]
  grind

/-- The doubles of an operand. Only its constants have any. -/
def Operand.doubles : Operand → List Double
  | .const c => c.doubles
  | .cast value _ => value.doubles
  | .func _ | .global _ | .reg _ | .arg _ | .asm .. => []

theorem Operand.toJson_ne_null (v : Operand) : v.toJson ≠ .null := by
  cases v <;> exact nofun

theorem Operand.roundTrips {v : Operand} (h : ∀ x ∈ v.doubles, x.ReadBack) :
    Json.RoundTrips toJson ofJson? v := by
  induction v with
  | func name | global name | arg index =>
      refine .tagged rfl rfl fun d b => ?_
      simp [Json.tagged_eq, ofJson?]
      grind
  | reg r =>
      refine .tagged rfl rfl fun d b => ?_
      simp [Json.tagged_eq, ofJson?, r.roundTrips d]
      grind
  | const c =>
      refine .tagged rfl rfl fun d b => ?_
      simp [Json.tagged_eq, ofJson?, Constant.roundTrips h d]
      grind
  | cast value ty ih =>
      refine .taggedRecord rfl rfl rfl fun d b => ?_
      have hfields : (Json.record [("value", value.toJson), ("to", ty.toJson)]).fields?
        ["value", "to"] = _ := Json.fields?_record rfl (by decide)
      simp [Json.tagged_eq, ofJson?, hfields, ih h d, ty.roundTrips d, Option.bind_eq_some_iff]
      grind
  | asm code constraints =>
      refine .taggedRecord rfl rfl rfl fun d b => ?_
      have hfields : (Json.record [("asm", .text code), ("constraints", .text constraints)]).fields?
        ["asm", "constraints"] = _ := Json.fields?_record rfl (by decide)
      simp [Json.tagged_eq, ofJson?, hfields, Json.fieldOr]
      grind

/-! ## Instructions -/

theorem Reg.toJson_ne_null (r : Reg) : r.toJson ≠ .null := nofun

theorem Reg.option_roundTrips (r : Option Reg) :
    Json.RoundTrips (Json.option toJson) (fun _ => Json.option? ofJson?) r :=
  .option toJson_ne_null fun r _ => r.roundTrips

theorem Operand.list_roundTrips {vs : List Operand} (h : ∀ v ∈ vs, ∀ x ∈ v.doubles, x.ReadBack) :
    Json.RoundTrips (Json.list toJson) (Json.listAt? ofJson?) vs :=
  .list fun v hv => roundTrips (h v hv)

/-- The doubles of an instruction, operand by operand. -/
def Instr.doubles (i : Instr) : List Double := i.operands.flatMap Operand.doubles

theorem Call.roundTrips {c : Call} (h : ∀ x ∈ (Instr.call c).doubles, x.ReadBack) :
    Json.RoundTrips toJson ofJson? c := by
  obtain ⟨result, ret, callee, args⟩ := c
  obtain ⟨hcallee, hargs⟩ : (∀ x ∈ callee.doubles, x.ReadBack) ∧
      ∀ v ∈ args, ∀ x ∈ v.doubles, x.ReadBack :=
    List.forall_mem_cons.mp (List.forall_mem_flatMap.mp h)
  refine .record rfl rfl fun d b => ?_
  have hfields : (toJson ⟨result, ret, callee, args⟩).fieldsAt?
    ["result", "ret_ty", "callee", "args"] (d + 1) = _ := Json.fieldsAt?_record rfl (by simp) d
  rw [ofJson?, hfields]
  simp [Json.fieldOr, Reg.option_roundTrips result d, ret.roundTrips d,
    Operand.roundTrips hcallee d, Operand.list_roundTrips hargs d, Option.bind_eq_some_iff]
  grind

theorem Instr.roundTrips {i : Instr} (h : ∀ x ∈ i.doubles, x.ReadBack) :
    Json.RoundTrips toJson ofJson? i := by
  cases i with
  | call c =>
      refine .tagged rfl rfl fun d b => ?_
      simp [Json.tagged_eq, ofJson?, Json.taggedAt?, Call.roundTrips h d]
      grind
  | op result ty opcode operands =>
      have hoperands : ∀ v ∈ operands, ∀ x ∈ v.doubles, x.ReadBack :=
        List.forall_mem_flatMap.mp h
      refine .taggedRecord rfl rfl rfl fun d b => ?_
      have hfields : (Json.record [("result", .option Reg.toJson result), ("ty", ty.toJson),
        ("opcode", .text opcode), ("operands", .list Operand.toJson operands)]).fieldsAt?
          ["result", "ty", "opcode", "operands"] (d + 1) = _ :=
            Json.fieldsAt?_record rfl (by simp) d
      simp [Json.tagged_eq, ofJson?, opOfJson?, Json.taggedAt?, hfields, Json.fieldOr,
        Reg.option_roundTrips result d, ty.roundTrips d, Operand.list_roundTrips hoperands d,
        Option.bind_eq_some_iff]
      grind
  | store value target =>
      obtain ⟨hvalue, htarget⟩ : (∀ x ∈ value.doubles, x.ReadBack) ∧
          ∀ v ∈ [target], ∀ x ∈ v.doubles, x.ReadBack :=
        List.forall_mem_cons.mp (List.forall_mem_flatMap.mp h)
      rw [List.forall_mem_singleton] at htarget
      refine .taggedRecord rfl rfl rfl fun d b => ?_
      have hfields : (Json.record [("value", value.toJson), ("ptr", target.toJson)]).fieldsAt?
        ["value", "ptr"] (d + 1) = _ := Json.fieldsAt?_record rfl (by simp) d
      simp [Json.tagged_eq, ofJson?, storeOfJson?, Json.taggedAt?, hfields,
        Operand.roundTrips hvalue d, Operand.roundTrips htarget d, Option.bind_eq_some_iff]
      grind
  | ret value =>
      have hvalue : Json.RoundTrips (Json.option Operand.toJson)
          (fun d => Json.option? (Operand.ofJson? d)) value := by
        refine .option Operand.toJson_ne_null fun v hv => Operand.roundTrips fun x hx => h x ?_
        subst hv
        exact List.mem_append_left _ hx
      refine .tagged rfl rfl fun d b => ?_
      simp [Json.tagged_eq, ofJson?, Json.taggedAt?, hvalue d]
      grind

/-! ## Functions -/

/-- The doubles of a function, in the order of its instructions. -/
def Func.doubles (f : Func) : List Double := f.instrs.flatMap Instr.doubles

theorem Block.roundTrips {b : Block} (h : ∀ i ∈ b.instrs, ∀ x ∈ i.doubles, x.ReadBack) :
    Json.RoundTrips toJson ofJson? b := by
  obtain ⟨label, instrs⟩ := b
  have hinstrs := Json.RoundTrips.list fun i hi => Instr.roundTrips (h i hi)
  refine .record rfl rfl fun d b => ?_
  have hfields : (toJson ⟨label, instrs⟩).fieldsAt? ["label", "instructions"] (d + 1) = _ :=
    Json.fieldsAt?_record rfl (by simp) d
  rw [ofJson?, hfields]
  simp [hinstrs d, Option.bind_eq_some_iff]
  grind

theorem Linkage.roundTrips (l : Linkage) : Json.RoundTrips toJson ofJson? l := by
  intro d b
  cases l <;> simp [toJson, name, ofJson?, Json.text, Json.nameAt?, ofName?, Json.depth, eq_comm]

theorem Func.roundTrips {f : Func} (h : ∀ x ∈ f.doubles, x.ReadBack) :
    Json.RoundTrips toJson ofJson? f := by
  obtain ⟨name, ret, params, variadic, linkage, body⟩ := f
  have hparams := Json.RoundTrips.list fun t (_ : t ∈ params) => t.roundTrips
  have hbody : Json.RoundTrips (Json.option (Json.list Block.toJson))
      (fun d => Json.option? (Json.listAt? Block.ofJson? d)) body := by
    refine .option (fun _ => Json.arr_ne_null) fun blocks hblocks => .list fun b hb => ?_
    subst hblocks
    refine Block.roundTrips fun i hi x hx => h x ?_
    exact List.mem_flatMap_of_mem (List.mem_flatMap_of_mem hb hi) hx
  refine .record rfl rfl fun d b => ?_
  have hfields : (toJson ⟨name, ret, params, variadic, linkage, body⟩).fieldsAt?
    ["name", "ret_ty", "params", "variadic", "linkage", "blocks"] (d + 1) = _ :=
      Json.fieldsAt?_record rfl (by simp) d
  rw [ofJson?, hfields]
  simp [Json.fieldOr, ret.roundTrips d, hparams d, linkage.roundTrips d, hbody d,
    Option.bind_eq_some_iff]
  grind

/-! ## Programs -/

/-- The doubles of a global: those of its initial value. -/
def Global.doubles (g : Global) : List Double := g.initial.toList.flatMap Constant.doubles

/-- The doubles of a program. -/
def Program.doubles (p : Program) : List Double :=
  p.globals.flatMap Global.doubles ++ p.functions.flatMap Func.doubles

theorem Global.roundTrips {g : Global} (h : ∀ x ∈ g.doubles, x.ReadBack) :
    Json.RoundTrips toJson ofJson? g := by
  obtain ⟨name, ty, isConstant, linkage, initial⟩ := g
  have hinitial : Json.RoundTrips (Json.option Constant.toJson)
      (fun d => Json.option? (Constant.ofJson? d)) initial := by
    refine .option Constant.toJson_ne_null fun c hc => Constant.roundTrips fun x hx => h x ?_
    subst hc
    exact List.mem_append_left _ hx
  refine .record rfl rfl fun d b => ?_
  have hfields : (toJson ⟨name, ty, isConstant, linkage, initial⟩).fieldsAt?
    ["name", "ty", "is_constant", "linkage", "initializer"] (d + 1) = _ :=
      Json.fieldsAt?_record rfl (by simp) d
  rw [ofJson?, hfields]
  simp [Json.fieldOr, ty.roundTrips d, linkage.roundTrips d, hinitial d, Option.bind_eq_some_iff]
  grind

theorem repeatedName?_eq_none_iff {seen names : List String} :
    repeatedName? seen names = none ↔ names.Nodup ∧ ∀ name ∈ names, name ∉ seen := by
  induction names generalizing seen with
  | nil => simp [repeatedName?]
  | cons name names ih =>
      rw [repeatedName?, List.nodup_cons]
      by_cases hname : name ∈ seen
      · rw [if_pos hname]
        exact iff_of_false nofun fun h => h.2 name List.mem_cons_self hname
      · rw [if_neg hname, ih]
        grind

theorem keyedList_list {α : Type} {encode : α → Json} {decode : Nat → Json → Option α}
    {name : α → String} {as : List α} (h : ∀ a ∈ as, Json.RoundTrips encode decode a)
    (duplicate : String → DecodeError) (d : Nat) :
    keyedList decode name duplicate d (.list encode as) =
      if (Json.list encode as).depth ≤ d then
        match repeatedName? [] (as.map name) with
        | some name => .error (duplicate name)
        | none => .ok as
      else .error .malformed := by
  have hlist := Json.RoundTrips.list h
  rw [keyedList]
  split
  next hnone =>
      rw [if_neg fun hd => nomatch hnone.symm.trans (hlist.decode_eq_some hd)]
  next bs hbs =>
      obtain ⟨hd, rfl⟩ := (hlist d bs).mp hbs
      exact (if_pos hd).symm

theorem keyedList_list_of_nodup {α : Type} {encode : α → Json} {decode : Nat → Json → Option α}
    {name : α → String} {as : List α} (h : ∀ a ∈ as, Json.RoundTrips encode decode a)
    (hnodup : (as.map name).Nodup) (duplicate : String → DecodeError) (d : Nat) :
    keyedList decode name duplicate d (.list encode as) =
      if (Json.list encode as).depth ≤ d then .ok as else .error .malformed := by
  have hrepeated : repeatedName? [] (as.map name) = none :=
    repeatedName?_eq_none_iff.mpr ⟨hnodup, fun _ _ => List.not_mem_nil⟩
  rw [keyedList_list h, hrepeated]

namespace Program

theorem depth_toJson_le {p : Program} {d : Nat} :
    p.toJson.depth ≤ d + 1 ↔
      (Json.list Func.toJson p.functions).depth ≤ d ∧
        (Json.list Global.toJson p.globals).depth ≤ d := by
  rw [toJson, Json.depth_record_le]
  simp

/-- The two lists of a program are read one after the other. -/
theorem ofJson_toJson_eq (p : Program) :
    ofJson p.toJson = (do
      let functions ← keyedList Func.ofJson? Func.name .duplicateFunction (maxDepth - 1)
        (.list Func.toJson p.functions)
      let globals ← keyedList Global.ofJson? Global.name .duplicateGlobal (maxDepth - 1)
        (.list Global.toJson p.globals)
      return { name := p.name, functions, globals }) := by
  simp only [ofJson, toJson, Json.record, Json.text, List.map_cons, List.map_nil,
    List.foldlM_cons, Partial.member, Json.text?]
  cases keyedList Func.ofJson? Func.name .duplicateFunction (maxDepth - 1)
    (.list Func.toJson p.functions) with
  | error => rfl
  | ok functions =>
      cases keyedList Global.ofJson? Global.name .duplicateGlobal (maxDepth - 1)
        (.list Global.toJson p.globals) with
      | error => rfl
      | ok globals => rfl

theorem roundTrips_members {p : Program} (h : ∀ x ∈ p.doubles, x.ReadBack) :
    (∀ f ∈ p.functions, Json.RoundTrips Func.toJson Func.ofJson? f) ∧
      ∀ g ∈ p.globals, Json.RoundTrips Global.toJson Global.ofJson? g := by
  obtain ⟨hglobals, hfunctions⟩ := List.forall_mem_append.mp h
  exact ⟨fun f hf => Func.roundTrips fun x hx => hfunctions x (List.mem_flatMap_of_mem hf hx),
    fun g hg => Global.roundTrips fun x hx => hglobals x (List.mem_flatMap_of_mem hg hx)⟩

theorem ofJson_toJson {p : Program} (hkeyed : p.Keyed) (h : ∀ x ∈ p.doubles, x.ReadBack) :
    ofJson p.toJson = if p.toJson.depth ≤ maxDepth then .ok p else .error .malformed := by
  obtain ⟨hfunctions, hglobals⟩ := roundTrips_members h
  have hdepth : p.toJson.depth ≤ maxDepth ↔
      (Json.list Func.toJson p.functions).depth ≤ maxDepth - 1 ∧
        (Json.list Global.toJson p.globals).depth ≤ maxDepth - 1 := depth_toJson_le
  rw [ofJson_toJson_eq, keyedList_list_of_nodup hfunctions hkeyed.1,
    keyedList_list_of_nodup hglobals hkeyed.2]
  simp only [hdepth]
  by_cases hf : (Json.list Func.toJson p.functions).depth ≤ maxDepth - 1
  · by_cases hg : (Json.list Global.toJson p.globals).depth ≤ maxDepth - 1
    · simp only [hf, hg, and_self, if_true]
      rfl
    · simp only [hf, hg, and_false, if_true, if_false]
      rfl
  · simp only [hf, false_and, if_false]
    rfl

theorem decode_eq_ofJson (p : Program) : decode p.encode = ofJson p.toJson := by
  rw [decode, encode, Json.read_pretty]

/-- Decoding the text of a program gives the program, if its doubles are read
back and the text does not nest too deep for a decoder. -/
theorem decode_encode {p : Program} (hkeyed : p.Keyed) (h : ∀ x ∈ p.doubles, x.ReadBack) :
    decode p.encode = if p.toJson.depth ≤ maxDepth then .ok p else .error .malformed := by
  rw [decode_eq_ofJson, ofJson_toJson hkeyed h]

/-- The text of a keyed program is JSON. It is decoded as the program if it nests
no more than 127 deep, and refused if it nests deeper. That a finite double
survives its text is assumed of those in the program. -/
theorem decode_encode_of_finite {p : Program} (hkeyed : p.Keyed)
    (hfinite : ∀ x ∈ p.doubles, x.isFinite = true)
    (hread : ∀ x ∈ p.doubles, x.isFinite = true → x.ReadBack) :
    Json.read? p.encode = some p.toJson ∧
      decode p.encode = if p.toJson.depth ≤ maxDepth then .ok p else .error .malformed := by
  refine ⟨?_, decode_encode hkeyed fun x hx => hread x hx (hfinite x hx)⟩
  rw [Json.read?, encode, Json.read_pretty]

/-- A program with the double 1.5 and with texts that have to be escaped. -/
def weighing : Program where
  name := "a \"b\"\\c\n\x01é"
  functions := [
    { name := "main", ret := .double, params := [.ptr (.array (.int 8) 18446744073709551615)],
      linkage := .internal, body := some [
        { label := "", instrs := [
          .op (some ⟨4294967295⟩) .double "fadd"
            [.const (.float .double ⟨0x3ff8000000000000⟩), .arg 0],
          .ret (some (.cast (.reg ⟨4294967295⟩) (.func .void [] true))),
          .ret none] }] }]
  globals := [
    { name := "\t", ty := .int 64, isConstant := true,
      initial := some (.int 64 (-9223372036854775808)) }]

theorem decode_encode_of_finite_weighing :
    weighing.Keyed ∧ (∀ x ∈ weighing.doubles, x.isFinite = true) ∧
    (∀ x ∈ weighing.doubles, x.isFinite = true → x.ReadBack) ∧
    Json.read? weighing.encode = some weighing.toJson ∧ decode weighing.encode = .ok weighing := by
  have hkeyed : weighing.Keyed := by decide
  have hdoubles : weighing.doubles = [⟨0x3ff8000000000000⟩] := rfl
  have hfinite : ∀ x ∈ weighing.doubles, x.isFinite = true := by
    rw [hdoubles]
    decide
  have hread : ∀ x ∈ weighing.doubles, x.isFinite = true → x.ReadBack := by
    intro x hx _
    cases List.mem_singleton.mp (hdoubles ▸ hx)
    decide +kernel
  obtain ⟨hjson, hdecode⟩ := decode_encode_of_finite hkeyed hfinite hread
  have hdepth : weighing.toJson.depth ≤ maxDepth := by decide +kernel
  rw [if_pos hdepth] at hdecode
  exact ⟨hkeyed, hfinite, hread, hjson, hdecode⟩

end Program

end ClosedWorld

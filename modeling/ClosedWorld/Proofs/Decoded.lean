import ClosedWorld.Proofs.Fallible
import ClosedWorld.Proofs.RoundTrip
import ClosedWorld.Proofs.Scaling

/-!
# What a text can describe

A program can be described by many texts: fields stand in any order and may be
left out, a record may be an array, a unit may be a tag of null. Whatever the
text was, the text that is written of the program can be decoded too. Three
things could be in the way, and none of them is.

The written text could nest too deep. It gives every field, and a field that the
first text left out may cost a container, an empty list of arguments for example.
But a decoder that has reached such a record has levels left, since the record
also has a part that needs them, or stands high enough in the program. The names
could repeat, but decoding refuses that. And a double could be an infinity, but a
numeral is never read as one.
-/

namespace ClosedWorld

/-- The data of a value nests no deeper than `d`, and its doubles are numbers. -/
def Fits {α : Type} (encode : α → Json) (doubles : α → List Double) (d : Nat) (a : α) : Prop :=
  (encode a).depth ≤ d ∧ ∀ x ∈ doubles a, x.isFinite = true

namespace Json

variable {α : Type}

theorem exists_of_mapM {decode : Json → Option α} {items : List Json} {as : List α}
    (h : items.mapM decode = some as) : ∀ a ∈ as, ∃ j, decode j = some a := by
  induction items generalizing as with
  | nil =>
      cases h
      exact fun a ha => nomatch ha
  | cons item items ih =>
      rw [List.mapM_cons] at h
      obtain ⟨a, ha, h⟩ := Option.bind_eq_some_iff.mp h
      obtain ⟨as', has, h⟩ := Option.bind_eq_some_iff.mp h
      cases h
      exact List.forall_mem_cons.mpr ⟨⟨item, ha⟩, ih has⟩

theorem exists_of_listAt? {decode : Nat → Json → Option α} {d : Nat} {j : Json} {as : List α}
    (h : listAt? decode d j = some as) :
    ∃ d', d = d' + 1 ∧ ∀ a ∈ as, ∃ j, decode d' j = some a := by
  revert h
  fun_cases listAt? decode d j with
  | case1 d items => exact fun h => ⟨d, rfl, exists_of_mapM h⟩
  | case2 => exact nofun

theorem of_fieldsAt? {names : List String} {d d' : Nat} {j : Json} {fields : List (Option Json)}
    (h : j.fieldsAt? names d = some (d', fields)) : d = d' + 1 := by
  cases d with
  | zero => cases h
  | succ d =>
      obtain ⟨fields', -, heq⟩ := Option.map_eq_some_iff.mp h
      cases heq
      rfl

theorem of_taggedAt? {d d' : Nat} {j value : Json} {tag : String}
    (h : j.taggedAt? d = some (tag, d', value)) : d = d' + 1 := by
  revert h
  fun_cases taggedAt? d j with
  | case1 =>
      rintro ⟨⟩
      rfl
  | case2 => exact nofun

theorem exists_of_option? {decode : Json → Option α} {j : Json} {a : Option α}
    (h : option? decode j = some a) : ∀ b, a = some b → ∃ j, decode j = some b := by
  revert h
  fun_cases option? decode j with
  | case1 =>
      rintro ⟨⟩ b ⟨⟩
  | case2 =>
      rintro h b rfl
      obtain ⟨b', hb, heq⟩ := Option.map_eq_some_iff.mp h
      cases heq
      exact ⟨j, hb⟩

theorem of_fieldOr {decode : Json → Option α} {default a : α} {field : Option Json}
    (h : fieldOr decode default field = some a) : a = default ∨ ∃ j, decode j = some a := by
  cases field with
  | none =>
      cases h
      exact Or.inl rfl
  | some j => exact Or.inr ⟨j, h⟩

theorem isFinite_of_double? {j : Json} {x : Double} (h : j.double? = some x) :
    x.isFinite = true := by
  cases j with
  | num n => exact Numeral.isFinite_of_toDouble? h
  | null | bool | str | arr | obj => cases h

end Json

theorem Ty.depth_toJson_of_ofName? {name : String} {t : Ty} (h : ofName? name = some t) :
    t.toJson.depth = 0 := by
  revert h
  fun_cases ofName? name with
  | case1 | case2 | case3 =>
      rintro ⟨⟩
      rfl
  | case4 => exact nofun

theorem Ty.depth_toJson_of_ofJson? {d : Nat} {j : Json} {t : Ty} (h : ofJson? d j = some t) :
    t.toJson.depth ≤ d := by
  induction d using Nat.strongRecOn generalizing j t with
  | ind d ih =>
      revert h
      fun_cases ofJson? d j with
      | case1 name =>
          intro h
          obtain ⟨name, -, h⟩ := Option.bind_eq_some_iff.mp h
          rw [depth_toJson_of_ofName? h]
          exact Nat.zero_le d
      | case2 d tag =>
          intro h
          rw [depth_toJson_of_ofName? h]
          exact Nat.zero_le _
      | case3 d value =>
          intro h
          obtain ⟨bits, -, rfl⟩ := Option.map_eq_some_iff.mp h
          rw [toJson, Json.depth_tagged_le]
          exact Nat.zero_le d
      | case4 value hvalue d =>
          intro h
          obtain ⟨t, ht, rfl⟩ := Option.map_eq_some_iff.mp h
          rw [toJson, Json.depth_tagged_le]
          exact ih d (Nat.lt_succ_self d) ht
      | case5 value hvalue d elem len hfields =>
          intro h
          simp only [Option.bind_eq_bind, Option.bind_eq_some_iff] at h
          obtain ⟨t, ht, n, -, ⟨⟩⟩ := h
          rw [toJson, Json.depth_tagged_le, Json.depth_record_le]
          simp [ih d (by omega) ht]
      | case7 d fields =>
          intro h
          obtain ⟨ts, hts, rfl⟩ := Option.map_eq_some_iff.mp h
          rw [toJson, toJsonAll_eq_map, Json.depth_tagged_le, Json.depth_arr_le,
            List.forall_mem_map]
          intro t ht
          obtain ⟨j, hj⟩ := Json.exists_of_mapM hts t ht
          exact ih d (by omega) hj
      | case9 value hvalue d ret params variadic hfields =>
          intro h
          simp only [Option.bind_eq_bind, Option.bind_eq_some_iff] at h
          obtain ⟨t, ht, ts, hts, b, -, ⟨⟩⟩ := h
          have hparams : (Json.arr (ts.map toJson)).depth ≤ d + 1 := by
            rw [Json.depth_arr_le, List.forall_mem_map]
            intro t ht
            obtain ⟨j, hj⟩ := Json.exists_of_mapM hts t ht
            exact ih d (by omega) hj
          rw [toJson, toJsonAll_eq_map, Json.depth_tagged_le, Json.depth_record_le]
          simp [ih (d + 1) (by omega) ht, hparams]
      | case6 | case8 | case10 | case11 | case12 => rintro ⟨⟩

theorem Constant.fits_of_ofJson? {d : Nat} {j : Json} {c : Constant} (h : ofJson? d j = some c) :
    Fits toJson doubles d c := by
  induction d using Nat.strongRecOn generalizing j c with
  | ind d ih =>
      revert h
      fun_cases ofJson? d j with
      | case1 value d bits number hfields =>
          intro h
          simp only [Option.bind_eq_bind, Option.bind_eq_some_iff] at h
          obtain ⟨b, -, n, -, ⟨⟩⟩ := h
          refine ⟨?_, List.forall_mem_nil _⟩
          rw [toJson, Json.depth_tagged_le, Json.depth_record_le]
          simp
      | case3 value d ty number hfields =>
          intro h
          simp only [Option.bind_eq_bind, Option.bind_eq_some_iff] at h
          obtain ⟨t, ht, x, hx, ⟨⟩⟩ := h
          refine ⟨?_, List.forall_mem_singleton.mpr (Json.isFinite_of_double? hx)⟩
          rw [toJson, Json.depth_tagged_le, Json.depth_record_le]
          simp [Ty.depth_toJson_of_ofJson? ht, x.depth_toJson]
      | case5 value d | case6 value d =>
          intro h
          obtain ⟨t, ht, rfl⟩ := Option.map_eq_some_iff.mp h
          refine ⟨?_, List.forall_mem_nil _⟩
          rw [toJson, Json.depth_tagged_le]
          exact Ty.depth_toJson_of_ofJson? ht
      | case7 d value | case8 d value =>
          intro h
          obtain ⟨name, -, rfl⟩ := Option.map_eq_some_iff.mp h
          refine ⟨?_, List.forall_mem_nil _⟩
          rw [toJson, Json.depth_tagged_le]
          exact Nat.zero_le d
      | case9 value d inner ty hfields =>
          intro h
          simp only [Option.bind_eq_bind, Option.bind_eq_some_iff] at h
          obtain ⟨c, hc, t, ht, ⟨⟩⟩ := h
          obtain ⟨hdepth, hfinite⟩ := ih d (by omega) hc
          refine ⟨?_, hfinite⟩
          rw [toJson, Json.depth_tagged_le, Json.depth_record_le]
          simp [hdepth, Ty.depth_toJson_of_ofJson? ht]
      | case11 value d elem elems hfields =>
          intro h
          simp only [Option.bind_eq_bind, Option.bind_eq_some_iff] at h
          obtain ⟨t, ht, cs, hcs, ⟨⟩⟩ := h
          have hfits : ∀ c ∈ cs, Fits toJson doubles d c := by
            intro c hc
            obtain ⟨j, hj⟩ := Json.exists_of_mapM hcs c hc
            exact ih d (by omega) hj
          have helems : (Json.arr (cs.map toJson)).depth ≤ d + 1 := by
            rw [Json.depth_arr_le, List.forall_mem_map]
            exact fun c hc => (hfits c hc).1
          refine ⟨?_, ?_⟩
          · rw [toJson, toJsonAll_eq_map, Json.depth_tagged_le, Json.depth_record_le]
            simp [Ty.depth_toJson_of_ofJson? ht, helems]
          · rw [doubles, doublesAll_eq_flatMap, List.forall_mem_flatMap]
            exact fun c hc => (hfits c hc).2
      | case2 | case4 | case10 | case12 | case13 | case14 => rintro ⟨⟩

theorem Operand.fits_of_ofJson? {d : Nat} {j : Json} {v : Operand} (h : ofJson? d j = some v) :
    Fits toJson doubles d v := by
  induction d using Nat.strongRecOn generalizing j v with
  | ind d ih =>
      revert h
      fun_cases ofJson? d j with
      | case1 d value | case2 d value | case3 d value | case4 d value =>
          intro h
          obtain ⟨_, -, rfl⟩ := Option.map_eq_some_iff.mp h
          refine ⟨?_, List.forall_mem_nil _⟩
          rw [toJson, Json.depth_tagged_le]
          exact Nat.zero_le d
      | case5 value d =>
          intro h
          obtain ⟨c, hc, rfl⟩ := Option.map_eq_some_iff.mp h
          obtain ⟨hdepth, hfinite⟩ := Constant.fits_of_ofJson? hc
          refine ⟨?_, hfinite⟩
          rwa [toJson, Json.depth_tagged_le]
      | case6 value d inner ty hfields =>
          intro h
          simp only [Option.bind_eq_bind, Option.bind_eq_some_iff] at h
          obtain ⟨v, hv, t, ht, ⟨⟩⟩ := h
          obtain ⟨hdepth, hfinite⟩ := ih d (by omega) hv
          refine ⟨?_, hfinite⟩
          rw [toJson, Json.depth_tagged_le, Json.depth_record_le]
          simp [hdepth, Ty.depth_toJson_of_ofJson? ht]
      | case8 value d code constraints hfields =>
          intro h
          simp only [Option.bind_eq_bind, Option.bind_eq_some_iff] at h
          obtain ⟨s, -, t, -, ⟨⟩⟩ := h
          refine ⟨?_, List.forall_mem_nil _⟩
          rw [toJson, Json.depth_tagged_le, Json.depth_record_le]
          simp
      | case7 | case9 | case10 | case11 => rintro ⟨⟩

theorem Operand.depth_toJson_ne_zero (v : Operand) : v.toJson.depth ≠ 0 := by
  cases v <;> exact Json.depth_tagged_ne_zero

theorem Ty.fits_of_ofJson? {d : Nat} {j : Json} {t : Ty} (h : ofJson? d j = some t) :
    Fits toJson (fun _ => []) d t :=
  ⟨depth_toJson_of_ofJson? h, nofun⟩

/-! ## Lists, options and records -/

namespace Json

variable {α : Type} {encode : α → Json} {doubles : α → List Double} {decode : Nat → Json → Option α}
  {d : Nat}

theorem fits_list (hfits : ∀ j a, decode d j = some a → Fits encode doubles d a) {j : Json}
    {as : List α} (h : listAt? decode (d + 1) j = some as) :
    Fits (list encode) (·.flatMap doubles) (d + 1) as := by
  obtain ⟨d', heq, has⟩ := exists_of_listAt? h
  cases heq
  have hall : ∀ a ∈ as, Fits encode doubles d a := fun a ha =>
    let ⟨j, hj⟩ := has a ha
    hfits j a hj
  refine ⟨?_, ?_⟩
  · rw [depth_list_le]
    exact fun a ha => (hall a ha).1
  · rw [List.forall_mem_flatMap]
    exact fun a ha => (hall a ha).2

theorem fits_list_of_fieldOr (hfits : ∀ j a, decode d j = some a → Fits encode doubles d a)
    {field : Option Json} {as : List α} (h : fieldOr (listAt? decode (d + 1)) [] field = some as) :
    Fits (list encode) (·.flatMap doubles) (d + 1) as := by
  rcases of_fieldOr h with rfl | ⟨j, hj⟩
  · exact ⟨depth_list_le.mpr nofun, nofun⟩
  · exact fits_list hfits hj

theorem fits_option (hfits : ∀ j a, decode d j = some a → Fits encode doubles d a) {j : Json}
    {a : Option α} (h : option? (decode d) j = some a) :
    Fits (option encode) (·.toList.flatMap doubles) d a := by
  have hall : ∀ b, a = some b → Fits encode doubles d b := fun b hb =>
    let ⟨j, hj⟩ := exists_of_option? h b hb
    hfits j b hj
  refine ⟨depth_option_le.mpr fun b hb => (hall b hb).1, ?_⟩
  rw [List.forall_mem_flatMap]
  exact fun b hb => (hall b (Option.mem_toList.mp hb)).2

theorem fits_option_of_fieldOr (hfits : ∀ j a, decode d j = some a → Fits encode doubles d a)
    {field : Option Json} {a : Option α} (h : fieldOr (option? (decode d)) none field = some a) :
    Fits (option encode) (·.toList.flatMap doubles) d a := by
  rcases of_fieldOr h with rfl | ⟨j, hj⟩
  · exact ⟨depth_option_le.mpr nofun, nofun⟩
  · exact fits_option hfits hj

end Json

@[simp] theorem Reg.depth_option (r : Option Reg) : (Json.option toJson r).depth = 0 := by
  cases r <;> rfl

@[simp] theorem Linkage.depth_toJson (l : Linkage) : l.toJson.depth = 0 := rfl

/-! ## Instructions and functions -/

theorem Call.fits_of_ofJson? {d : Nat} {j : Json} {c : Call} (h : ofJson? d j = some c) :
    Fits toJson (fun c => (Instr.call c).doubles) d c := by
  simp only [ofJson?, Option.bind_eq_bind, Option.bind_eq_some_iff] at h
  obtain ⟨⟨d, fields⟩, hfields, h⟩ := h
  cases Json.of_fieldsAt? hfields
  split at h
  next d result ret callee args heq =>
      cases heq
      simp only [Option.bind_eq_some_iff] at h
      obtain ⟨r, -, t, ht, v, hv, vs, hvs, ⟨⟩⟩ := h
      obtain ⟨hcallee, hcalleeFinite⟩ := Operand.fits_of_ofJson? hv
      -- The callee is a container, so there is a level left for the arguments.
      obtain ⟨d, rfl⟩ : ∃ d', d = d' + 1 :=
        Nat.exists_eq_succ_of_ne_zero fun hd => v.depth_toJson_ne_zero (by omega)
      obtain ⟨hargs, hargsFinite⟩ :=
        Json.fits_list_of_fieldOr (fun _ _ => Operand.fits_of_ofJson?) hvs
      refine ⟨?_, List.forall_mem_append.mpr ⟨hcalleeFinite, hargsFinite⟩⟩
      rw [toJson, Json.depth_record_le]
      simp [Ty.depth_toJson_of_ofJson? ht, hcallee, hargs]
  next => cases h

/-- The operands of an operation may be left out, so the operation itself needs
only two levels. With a third one there is room for the empty list. -/
theorem Instr.fits_of_opOfJson? {d : Nat} (hd : 2 ≤ d) {j : Json} {i : Instr}
    (h : opOfJson? d j = some i) : Fits toJson doubles (d + 1) i := by
  simp only [opOfJson?, Option.bind_eq_bind, Option.bind_eq_some_iff] at h
  obtain ⟨⟨d, fields⟩, hfields, h⟩ := h
  cases Json.of_fieldsAt? hfields
  split at h
  next d result ty opcode operands heq =>
      cases heq
      simp only [Option.bind_eq_some_iff] at h
      obtain ⟨r, -, t, ht, s, -, vs, hvs, ⟨⟩⟩ := h
      obtain ⟨d, rfl⟩ : ∃ d', d = d' + 1 := ⟨d - 1, by omega⟩
      obtain ⟨hoperands, hfinite⟩ :=
        Json.fits_list_of_fieldOr (fun _ _ => Operand.fits_of_ofJson?) hvs
      refine ⟨?_, hfinite⟩
      rw [toJson, Json.depth_tagged_le, Json.depth_record_le]
      simp [Ty.depth_toJson_of_ofJson? ht, hoperands]
  next => cases h

theorem Instr.fits_of_storeOfJson? {d : Nat} {j : Json} {i : Instr}
    (h : storeOfJson? d j = some i) : Fits toJson doubles (d + 1) i := by
  simp only [storeOfJson?, Option.bind_eq_bind, Option.bind_eq_some_iff] at h
  obtain ⟨⟨d, fields⟩, hfields, h⟩ := h
  cases Json.of_fieldsAt? hfields
  split at h
  next d value target heq =>
      cases heq
      simp only [Option.bind_eq_some_iff] at h
      obtain ⟨v, hv, w, hw, ⟨⟩⟩ := h
      obtain ⟨hvalue, hvalueFinite⟩ := Operand.fits_of_ofJson? hv
      obtain ⟨htarget, htargetFinite⟩ := Operand.fits_of_ofJson? hw
      refine ⟨?_, ?_⟩
      · rw [toJson, Json.depth_tagged_le, Json.depth_record_le]
        simp [hvalue, htarget]
      · rw [doubles, List.forall_mem_flatMap]
        exact List.forall_mem_cons.mpr ⟨hvalueFinite, List.forall_mem_singleton.mpr htargetFinite⟩
  next => cases h

theorem Instr.fits_of_ofJson? {d : Nat} (hd : 3 ≤ d) {j : Json} {i : Instr}
    (h : ofJson? d j = some i) : Fits toJson doubles d i := by
  simp only [ofJson?, Option.bind_eq_bind, Option.bind_eq_some_iff] at h
  obtain ⟨⟨tag, d, value⟩, htag, h⟩ := h
  cases Json.of_taggedAt? htag
  split at h
  next heq =>
      cases heq
      obtain ⟨c, hc, rfl⟩ := Option.map_eq_some_iff.mp h
      obtain ⟨hdepth, hfinite⟩ := Call.fits_of_ofJson? hc
      refine ⟨?_, hfinite⟩
      rwa [toJson, Json.depth_tagged_le]
  next heq =>
      cases heq
      exact fits_of_opOfJson? (by omega) h
  next heq =>
      cases heq
      exact fits_of_storeOfJson? h
  next heq =>
      cases heq
      obtain ⟨v, hv, rfl⟩ := Option.map_eq_some_iff.mp h
      obtain ⟨hdepth, hfinite⟩ := Json.fits_option (fun _ _ => Operand.fits_of_ofJson?) hv
      refine ⟨?_, hfinite⟩
      rwa [toJson, Json.depth_tagged_le]
  next => cases h

theorem Block.fits_of_ofJson? {d : Nat} (hd : 5 ≤ d) {j : Json} {b : Block}
    (h : ofJson? d j = some b) : Fits toJson (·.instrs.flatMap Instr.doubles) d b := by
  simp only [ofJson?, Option.bind_eq_bind, Option.bind_eq_some_iff] at h
  obtain ⟨⟨d, fields⟩, hfields, h⟩ := h
  cases Json.of_fieldsAt? hfields
  split at h
  next d label instrs heq =>
      cases heq
      simp only [Option.bind_eq_some_iff] at h
      obtain ⟨s, -, is, his, ⟨⟩⟩ := h
      obtain ⟨d, rfl⟩ : ∃ d', d = d' + 1 := ⟨d - 1, by omega⟩
      obtain ⟨hinstrs, hfinite⟩ := Json.fits_list (fun _ _ => Instr.fits_of_ofJson? (by omega)) his
      refine ⟨?_, hfinite⟩
      rw [toJson, Json.depth_record_le]
      simp [hinstrs]
  next => cases h

theorem Func.doubles_eq (f : Func) :
    f.doubles = f.body.toList.flatMap (·.flatMap (·.instrs.flatMap Instr.doubles)) := by
  rw [doubles, instrs, blocks, List.flatMap_assoc]
  cases f.body with
  | none => rfl
  | some bs => exact (List.append_nil _).symm

theorem Func.fits_of_ofJson? {d : Nat} (hd : 7 ≤ d) {j : Json} {f : Func}
    (h : ofJson? d j = some f) : Fits toJson doubles d f := by
  simp only [ofJson?, Option.bind_eq_bind, Option.bind_eq_some_iff] at h
  obtain ⟨⟨d, fields⟩, hfields, h⟩ := h
  cases Json.of_fieldsAt? hfields
  split at h
  next d name ret params variadic linkage body heq =>
      cases heq
      simp only [Option.bind_eq_some_iff] at h
      obtain ⟨s, -, t, ht, ts, hts, b, -, l, -, bs, hbs, ⟨⟩⟩ := h
      obtain ⟨d, rfl⟩ : ∃ d', d = d' + 1 := ⟨d - 1, by omega⟩
      obtain ⟨hparams, -⟩ := Json.fits_list_of_fieldOr (fun _ _ => Ty.fits_of_ofJson?) hts
      obtain ⟨hbody, hfinite⟩ := Json.fits_option_of_fieldOr
        (fun _ _ hbs => Json.fits_list (fun _ _ => Block.fits_of_ofJson? (by omega)) hbs) hbs
      refine ⟨?_, ?_⟩
      · rw [toJson, Json.depth_record_le]
        simp [Ty.depth_toJson_of_ofJson? ht, hparams, hbody]
      · rwa [doubles_eq]
  next => cases h

/-! ## Programs -/

theorem Global.fits_of_ofJson? {d : Nat} {j : Json} {g : Global} (h : ofJson? d j = some g) :
    Fits toJson doubles d g := by
  simp only [ofJson?, Option.bind_eq_bind, Option.bind_eq_some_iff] at h
  obtain ⟨⟨d, fields⟩, hfields, h⟩ := h
  cases Json.of_fieldsAt? hfields
  split at h
  next d name ty isConstant linkage initial heq =>
      cases heq
      simp only [Option.bind_eq_some_iff] at h
      obtain ⟨s, -, t, ht, b, -, l, -, c, hc, ⟨⟩⟩ := h
      obtain ⟨hinitial, hfinite⟩ :=
        Json.fits_option_of_fieldOr (fun _ _ => Constant.fits_of_ofJson?) hc
      refine ⟨?_, hfinite⟩
      rw [toJson, Json.depth_record_le]
      simp [Ty.depth_toJson_of_ofJson? ht, hinitial]
  next => cases h

/-- The names of a list that a decoder accepts are different, and its members were
decoded one level down. -/
theorem keyedList_eq_ok {α : Type} {decode : Nat → Json → Option α} {name : α → String}
    {duplicate : String → DecodeError} {d : Nat} {j : Json} {as : List α}
    (h : keyedList decode name duplicate d j = .ok as) :
    j.listAt? decode d = some as ∧ (as.map name).Nodup := by
  rw [keyedList] at h
  split at h
  next => cases h
  next as' has =>
      split at h
      next => cases h
      next hnone =>
          cases h
          exact ⟨has, (repeatedName?_eq_none_iff.mp hnone).1⟩

namespace Program

/-- What decoding establishes of the members read so far. -/
structure Partial.Decoded (m : Partial) : Prop where
  functions : ∀ fs, m.functions = some fs →
    (fs.map Func.name).Nodup ∧ Fits (.list Func.toJson) (·.flatMap Func.doubles) (maxDepth - 1) fs
  globals : ∀ gs, m.globals = some gs →
    (gs.map Global.name).Nodup ∧
      Fits (.list Global.toJson) (·.flatMap Global.doubles) (maxDepth - 1) gs

theorem Partial.Decoded.member {m m' : Partial} (hm : m.Decoded) {member : Literal × Json}
    (h : m.member member = .ok m') : m'.Decoded := by
  revert h
  fun_cases Partial.member m member with
  | case1 =>
      rintro ⟨⟩
      exact ⟨hm.functions, hm.globals⟩
  | case4 value =>
      intro h
      cases hfs : keyedList Func.ofJson? Func.name .duplicateFunction (maxDepth - 1) value with
      | error => rw [hfs] at h; cases h
      | ok fs =>
          rw [hfs] at h
          cases h
          obtain ⟨hlist, hnodup⟩ := keyedList_eq_ok hfs
          refine ⟨?_, hm.globals⟩
          rintro _ ⟨⟩
          exact ⟨hnodup, Json.fits_list (fun _ _ => Func.fits_of_ofJson? (by decide)) hlist⟩
  | case6 value =>
      intro h
      cases hgs : keyedList Global.ofJson? Global.name .duplicateGlobal (maxDepth - 1) value with
      | error => rw [hgs] at h; cases h
      | ok gs =>
          rw [hgs] at h
          cases h
          obtain ⟨hlist, hnodup⟩ := keyedList_eq_ok hgs
          refine ⟨hm.functions, ?_⟩
          rintro _ ⟨⟩
          exact ⟨hnodup, Json.fits_list (fun _ _ => Global.fits_of_ofJson?) hlist⟩
  | case7 =>
      rintro ⟨⟩
      exact hm
  | case2 | case3 | case5 | case8 => exact nofun

theorem Partial.Decoded.foldlM {m m' : Partial} (hm : m.Decoded) {members : List (Literal × Json)}
    (h : members.foldlM Partial.member m = .ok m') : m'.Decoded := by
  induction members generalizing m with
  | nil =>
      cases h
      exact hm
  | cons member members ih =>
      rw [List.foldlM_cons] at h
      obtain ⟨m₁, hm₁, h⟩ := bind_eq_ok.mp h
      exact ih (hm.member hm₁) h

theorem Partial.Decoded.init : ({} : Partial).Decoded := ⟨nofun, nofun⟩

/-- What decoding gives: a keyed program that nests no deeper than a decoder goes,
without a double that is no number. -/
structure Decoded (p : Program) : Prop where
  keyed : p.Keyed
  fits : Fits toJson doubles maxDepth p

theorem Partial.Decoded.complete {m : Partial} (hm : m.Decoded) : m.complete.Decoded := by
  have hfunctions : (m.complete.functions.map Func.name).Nodup ∧
      Fits (.list Func.toJson) (·.flatMap Func.doubles) (maxDepth - 1) m.complete.functions := by
    rw [Partial.complete]
    cases hfs : m.functions with
    | none => exact ⟨List.nodup_nil, Json.depth_list_le.mpr nofun, nofun⟩
    | some fs => exact hm.functions fs hfs
  have hglobals : (m.complete.globals.map Global.name).Nodup ∧
      Fits (.list Global.toJson) (·.flatMap Global.doubles) (maxDepth - 1) m.complete.globals := by
    rw [Partial.complete]
    cases hgs : m.globals with
    | none => exact ⟨List.nodup_nil, Json.depth_list_le.mpr nofun, nofun⟩
    | some gs => exact hm.globals gs hgs
  refine ⟨⟨hfunctions.1, hglobals.1⟩, depth_toJson_le.mpr ⟨hfunctions.2.1, hglobals.2.1⟩, ?_⟩
  rw [doubles, List.forall_mem_append]
  exact ⟨hglobals.2.2, hfunctions.2.2⟩

theorem decoded_of_ofJson {j : Json} {p : Program} (h : ofJson j = .ok p) : p.Decoded := by
  revert h
  fun_cases ofJson j with
  | case1 members =>
      intro h
      obtain ⟨m, hm, rfl⟩ := map_eq_ok.mp h
      exact (Partial.Decoded.init.foldlM hm).complete
  | case2 items names =>
      intro h
      obtain ⟨m, hm, h⟩ := bind_eq_ok.mp h
      split at h
      next =>
          cases h
          exact (Partial.Decoded.init.foldlM hm).complete
      next => cases h
  | case3 => exact nofun

theorem decoded_of_decode {text : String} {p : Program} (h : decode text = .ok p) : p.Decoded := by
  rw [decode] at h
  split at h
  next => exact decoded_of_ofJson h
  next =>
      obtain ⟨_, _, h⟩ := bind_eq_ok.mp h
      cases h

/-- What is written of a program that a text described describes it again, and is
written of it again. That a finite double survives its text is assumed of those
in the program. -/
theorem decode_encode_of_decode {text : String} {p : Program} (h : decode text = .ok p)
    (hread : ∀ x ∈ p.doubles, x.isFinite = true → x.ReadBack) :
    decode p.encode = .ok p ∧ ∀ q, decode p.encode = .ok q → q.encode = p.encode := by
  have hp := decoded_of_decode h
  have hdecode : decode p.encode = .ok p := by
    rw [decode_encode hp.keyed fun x hx => hread x hx (hp.fits.2 x hx), if_pos hp.fits.1]
  refine ⟨hdecode, fun q hq => ?_⟩
  cases hdecode.symm.trans hq
  rfl

/-- A text in which the program is an array, its one type a tag of null, its one
double an integer, and most fields are missing. -/
def terse : String :=
  " [\"m\", [\x7b \"note\": [[[]]], \"ret_ty\": \x7b\"void\": null\x7d, \"name\": \"f\",\n"
    ++ "\"blocks\": [[\"\", [\x7b\"op\": [null, \"double\", \"fneg\"]\x7d,\t\x7b\"ret\": "
    ++ "\x7b\"const\": \x7b\"float\": [\"double\", 3]\x7d\x7d\x7d]]] \x7d]] "

/-- The program of that text. -/
def tersely : Program where
  name := "m"
  functions := [
    { name := "f", ret := .void, body := some [
      { label := "", instrs := [
        .op none .double "fneg" [],
        .ret (some (.const (.float .double ⟨0x4008000000000000⟩)))] }] }]

theorem decode_encode_of_decode_terse :
    decode terse = .ok tersely ∧ (∀ x ∈ tersely.doubles, x.isFinite = true → x.ReadBack) ∧
      terse ≠ tersely.encode ∧ decode tersely.encode = .ok tersely := by
  have hdecode : decode terse = .ok tersely := eq_ok_of_toOption (by decide +kernel)
  have hread : ∀ x ∈ tersely.doubles, x.isFinite = true → x.ReadBack := by decide +kernel
  exact ⟨hdecode, hread, by decide +kernel, (decode_encode_of_decode hdecode hread).1⟩

end Program

end ClosedWorld

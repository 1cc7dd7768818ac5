import ClosedWorld.Codec.Config
import ClosedWorld.Proofs.RoundTrip

/-!
# Configurations given in part

A text need not give every field of a configuration. The ones it gives may come in
any order and among members that mean nothing, and what it leaves out is as it is
by default. So a text says which fields it overrides and with what, and the
configuration it describes is determined by that (`Config.overriding`).

Whether the configuration is accepted is another matter. A check sees the given
fields and the defaults together: an entry function without a name is refused even
where the text says nothing about the stages, as by default they include the one
that needs it.
-/

namespace ClosedWorld

namespace Json

variable {α : Type}

theorem fieldOr_ite {p : Prop} [Decidable p] {decode : Json → Option α} {usual a : α} {j : Json}
    (h : decode j = some a) :
    fieldOr decode usual (if p then some j else none) = some (if p then a else usual) := by
  split
  · exact h
  · rfl

theorem roundTrips_text (s : String) : RoundTrips text textAt? s := by
  intro d b
  simp [textAt?, eq_comm]

end Json

theorem Stage.ofName?_name (s : Stage) : ofName? s.name = some s := by
  cases s <;> decide

theorem Stage.roundTrips (s : Stage) : Json.RoundTrips toJson ofJson? s := by
  intro d b
  simp [toJson, ofJson?, Json.text, Json.nameAt?, Json.depth, ofName?_name, eq_comm]

theorem TablePolicy.roundTrips (t : TablePolicy) : Json.RoundTrips toJson ofJson? t := by
  intro d b
  cases t <;> simp [toJson, name, ofJson?, Json.text, Json.nameAt?, ofName?, Json.depth, eq_comm]

namespace Config

/-- The configuration that has the given fields of another one, and is as by
default otherwise. -/
def overriding (c : Config) (given : List String) : Config :=
  let usual : Config := {}
  { unsupported := if "unsupported_calls" ∈ given then c.unsupported else usual.unsupported
    oracleMark := if "oracle_prefix" ∈ given then c.oracleMark else usual.oracleMark
    trusted := if "leave_calls" ∈ given then c.trusted else usual.trusted
    stripped := if "strip_bodies" ∈ given then c.stripped else usual.stripped
    entryFunction := if "entry_function" ∈ given then c.entryFunction else usual.entryFunction
    entryTable := if "entry_table" ∈ given then c.entryTable else usual.entryTable
    tablePolicy := if "entry_table_policy" ∈ given then c.tablePolicy else usual.tablePolicy
    stages := if "stages" ∈ given then c.stages else usual.stages
    verifyInput := if "verify_input" ∈ given then c.verifyInput else usual.verifyInput
    verifyOutput := if "verify_output" ∈ given then c.verifyOutput else usual.verifyOutput }

theorem overriding_fieldNames (c : Config) : c.overriding fieldNames = c := by
  simp [overriding, fieldNames]

theorem fields_fst (c : Config) : c.fields.map Prod.fst = fieldNames := rfl

theorem filter_fields (c : Config) : (c.fields.filter fun m => m.1 ∈ fieldNames) = c.fields :=
  List.filter_eq_self.mpr fun _ hm => decide_eq_true (c.fields_fst ▸ List.mem_map_of_mem hm)

/-- What is read of the fields that are given, within a depth that suffices for a
list of names. -/
theorem ofJson?_of_fields? {c : Config} {given : List String} {j : Json}
    (h : j.fields? fieldNames = some (c.fields.map fun m => if m.1 ∈ given then some m.2 else none))
    (d : Nat) : ofJson? (d + 2) j = some (c.overriding given) := by
  -- One level is the record, and one more is a list in it.
  have htexts : ∀ as, Json.listAt? Json.textAt? (d + 1) (.list .text as) = some as := fun as =>
    (Json.RoundTrips.list fun s _ => Json.roundTrips_text s).decode_eq_some
      (Json.depth_list_le.mpr fun s _ => Nat.zero_le d)
  have hstages : ∀ ss, Json.listAt? Stage.ofJson? (d + 1) (.list Stage.toJson ss) = some ss :=
    fun ss => (Json.RoundTrips.list fun s _ => Stage.roundTrips s).decode_eq_some
      (Json.depth_list_le.mpr fun s _ => Nat.zero_le d)
  have hpolicy : ∀ t, TablePolicy.ofJson? (d + 1) (TablePolicy.toJson t) = some t := fun t =>
    (TablePolicy.roundTrips t).decode_eq_some (Nat.zero_le _)
  rw [ofJson?, Json.fieldsAt?, h]
  simp only [fields, List.map, Option.map_some, Option.bind_eq_bind, Option.bind_some,
    Json.fieldOr_ite (htexts _), Json.fieldOr_ite (hstages _), Json.fieldOr_ite (hpolicy _),
    Json.fieldOr_ite (Json.text?_text _), Json.fieldOr_ite (Json.bool?_bool _)]
  rfl

section

variable {c : Config} {given : List String} {members others : List (String × Json)} {text : String}

theorem load_eq_map_check (htext : Json.read? text = some (.record members))
    (hmembers : members.Perm ((c.fields.filter fun m => m.1 ∈ given) ++ others))
    (hothers : ∀ m ∈ others, m.1 ∉ fieldNames) :
    load text = (c.overriding given).check.map fun _ => c.overriding given := by
  have hfields := Json.fields?_record_of_perm c.fields_fst (by decide) hmembers hothers
  have hdecode : decode text = .ok (c.overriding given) := by
    rw [decode, Json.decodeText?, htext, Option.bind_some]
    rw [show maxDepth = 125 + 2 from rfl, ofJson?_of_fields? hfields]
  rw [load, hdecode]
  show ((c.overriding given).check >>= fun _ => .ok (c.overriding given)) = _
  cases (c.overriding given).check <;> rfl

/-- **A text overrides the fields it gives and no others.** Let a text give some
fields of a configuration, in any order and among other members. It is accepted
exactly if the configuration with these fields, and with the defaults for the
rest, is, and then it is that configuration. Else the error is the one for which
that configuration is refused. In particular a text that gives all fields
stands for the configuration itself. -/
theorem load_overriding (htext : Json.read? text = some (.record members))
    (hmembers : members.Perm ((c.fields.filter fun m => m.1 ∈ given) ++ others))
    (hothers : ∀ m ∈ others, m.1 ∉ fieldNames) :
    (∀ c', load text = .ok c' ↔
        (c.overriding given).check = .ok () ∧ c' = c.overriding given) ∧
      (∀ e, (load text).mapError Error.config = .error e ↔
        ∃ cause, (c.overriding given).check = .error cause ∧ e = .config cause) ∧
      ∀ full, Json.read? full = some c.toJson → (load full = .ok c ↔ c.check = .ok ()) := by
  have hload := load_eq_map_check htext hmembers hothers
  refine ⟨fun c' => ?_, fun e => ?_, fun full hfull => ?_⟩
  · rw [hload]
    cases (c.overriding given).check <;> simp [Except.map, eq_comm]
  · rw [hload]
    cases (c.overriding given).check <;> simp [Except.map, Except.mapError, eq_comm]
  · have hall : c.fields.Perm ((c.fields.filter fun m => m.1 ∈ fieldNames) ++ []) := by
      rw [List.append_nil, filter_fields]
    rw [load_eq_map_check hfull hall nofun, overriding_fieldNames]
    cases c.check <;> simp [Except.map]

end

/-- A configuration whose entry function has no name. It lists no stage that needs
one. -/
def entryless : Config where
  trusted := ["\"malloc\"", "\\\n\x01é"]
  entryFunction := ""
  tablePolicy := .reject
  stages := [.deleteUndefined, .checkUnsupported]
  verifyOutput := false

/-- Fields of `entryless` in another order, behind a member that is not a field. The
stages are not given, and by default one of them needs the entry function. -/
def entrylessPart : List (String × Json) :=
  [("comment", .arr [.null, .str none]), ("comment", .text "stages"),
    ("verify_output", .bool false), ("entry_function", .text ""),
    ("leave_calls", .list .text entryless.trusted)]

theorem load_overriding_entryless :
    Json.read? (Json.record entrylessPart).pretty = some (.record entrylessPart) ∧
      (load (Json.record entrylessPart).pretty).mapError Error.config =
        .error (.config .unnamedEntryFunction) ∧
      load entryless.toJson.compact = .ok entryless := by
  have htext := (Json.record entrylessPart).read?_pretty
  have hfull := entryless.toJson.read?_compact
  have hmembers : entrylessPart.Perm
      ((entryless.fields.filter fun m =>
        m.1 ∈ ["entry_function", "leave_calls", "verify_output"]) ++ entrylessPart.take 2) := by
    show (entrylessPart.take 2 ++ entrylessPart.drop 2).Perm _
    have hgiven := (List.reverse_perm (entrylessPart.drop 2)).symm
    exact List.perm_append_comm.trans (hgiven.append_right _)
  obtain ⟨-, herror, hload⟩ := load_overriding htext hmembers (by decide)
  exact ⟨htext, (herror _).mpr ⟨_, rfl, rfl⟩, (hload _ hfull).mpr rfl⟩

end Config

end ClosedWorld

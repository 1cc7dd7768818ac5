import ClosedWorld.Proofs.Fallible
import ClosedWorld.Proofs.RoundTrip

/-!
# Lists with repeated names

A text lists functions and globals, and nothing keeps it from giving a name twice.
Reading it must not let a later definition take the place of an earlier one. It
does not: a text is read if, and only if, no name comes twice in either list, and
then both lists are there as they were written. Otherwise the error names the
first function that repeats a name, or the first global if no function does
(`Program.decode_keys`).

The search for a repeated name carries along the names it has passed. What has to
hold of them is said in `repeatedName?_eq_some_iff`: they are the names ahead, and
none of them has come twice so far.
-/

namespace ClosedWorld

/-- The first member of a list that repeats the name of an earlier one. -/
def FirstRepeat {α : Type} (name : α → String) (as : List α) (a : α) : Prop :=
  ∃ before after, as = before ++ a :: after ∧ (before.map name).Nodup ∧ name a ∈ before.map name

theorem repeatedName?_eq_some_iff {seen names : List String} {name : String} :
    repeatedName? seen names = some name ↔
      ∃ before after, names = before ++ name :: after ∧ before.Nodup ∧
        (∀ n ∈ before, n ∉ seen) ∧ (name ∈ seen ∨ name ∈ before) := by
  induction names generalizing seen with
  | nil => simp [repeatedName?]
  | cons n names ih =>
      rw [repeatedName?]
      split
      next hn =>
          constructor
          · rintro ⟨⟩
            have hnone : ∀ m ∈ [], m ∉ seen := fun _ hm => absurd hm List.not_mem_nil
            exact ⟨[], names, rfl, List.nodup_nil, hnone, Or.inl hn⟩
          · rintro ⟨before, after, hsplit, -, hseen, -⟩
            cases before with
            | nil => exact congrArg some (List.cons.inj hsplit).1
            | cons m before =>
                obtain ⟨rfl, -⟩ := List.cons.inj hsplit
                exact absurd hn (hseen n List.mem_cons_self)
      next hn =>
          rw [ih]
          constructor
          · rintro ⟨before, after, rfl, hnodup, hseen, hname⟩
            refine ⟨n :: before, after, rfl, ?_, ?_, ?_⟩
            · exact List.nodup_cons.mpr ⟨fun h => hseen n h List.mem_cons_self, hnodup⟩
            · refine List.forall_mem_cons.mpr ⟨hn, fun m hm h => ?_⟩
              exact hseen m hm (List.mem_cons_of_mem n h)
            · grind
          · rintro ⟨before, after, hsplit, hnodup, hseen, hname⟩
            cases before with
            | nil =>
                obtain ⟨rfl, -⟩ := List.cons.inj hsplit
                exact absurd hname (by simp [hn])
            | cons m before =>
                obtain ⟨rfl, rfl⟩ := List.cons.inj hsplit
                obtain ⟨hfresh, hnodup⟩ := List.nodup_cons.mp hnodup
                refine ⟨before, after, rfl, hnodup, fun m hm h => ?_, ?_⟩
                · rcases List.mem_cons.mp h with rfl | h
                  · exact hfresh hm
                  · exact hseen m (List.mem_cons_of_mem n hm) h
                · grind

theorem repeatedName?_map_eq_some_iff {α : Type} {name : α → String} {as : List α} {n : String} :
    repeatedName? [] (as.map name) = some n ↔ ∃ a, FirstRepeat name as a ∧ name a = n := by
  rw [repeatedName?_eq_some_iff]
  constructor
  · rintro ⟨before, after, hsplit, hnodup, -, hmem⟩
    obtain ⟨before, as', rfl, rfl, hrest⟩ := List.map_eq_append_iff.mp hsplit
    obtain ⟨a, after, rfl, rfl, -⟩ := List.map_eq_cons_iff.mp hrest
    exact ⟨a, ⟨before, after, rfl, hnodup, hmem.resolve_left List.not_mem_nil⟩, rfl⟩
  · rintro ⟨a, ⟨before, after, rfl, hnodup, hmem⟩, rfl⟩
    refine ⟨before.map name, after.map name, ?_, hnodup, fun _ _ => List.not_mem_nil, Or.inr hmem⟩
    rw [List.map_append, List.map_cons]

theorem repeatedName?_map_eq_none_iff {α : Type} {name : α → String} {as : List α} :
    repeatedName? [] (as.map name) = none ↔ (as.map name).Nodup := by
  rw [repeatedName?_eq_none_iff]
  exact and_iff_left fun _ _ => List.not_mem_nil

theorem exists_firstRepeat_iff {α : Type} (name : α → String) (as : List α) (P : String → Prop) :
    (∃ a, FirstRepeat name as a ∧ P (name a)) ↔
      ∃ n, repeatedName? [] (as.map name) = some n ∧ P n := by
  constructor
  · rintro ⟨a, ha, h⟩
    exact ⟨name a, repeatedName?_map_eq_some_iff.mpr ⟨a, ha, rfl⟩, h⟩
  · rintro ⟨n, hn, h⟩
    obtain ⟨a, ha, rfl⟩ := repeatedName?_map_eq_some_iff.mp hn
    exact ⟨a, ha, h⟩

namespace Program

theorem decode_of_read? {text : String} {j : Json} (h : Json.read? text = some j) :
    decode text = ofJson j := by
  rw [Json.read?] at h
  rw [decode]
  cases hread : Json.read text with
  | whole value =>
      rw [hread] at h
      exact congrArg ofJson (Option.some.inj h)
  | cut beginning =>
      rw [hread] at h
      cases h

/-- What decoding makes of the lists of a program, whether it is keyed or not. -/
theorem ofJson_toJson_cases {p : Program} (h : ∀ x ∈ p.doubles, x.ReadBack)
    (hdepth : p.toJson.depth ≤ maxDepth) :
    ofJson p.toJson =
      match repeatedName? [] (p.functions.map Func.name) with
      | some name => .error (.duplicateFunction name)
      | none =>
          match repeatedName? [] (p.globals.map Global.name) with
          | some name => .error (.duplicateGlobal name)
          | none => .ok p := by
  obtain ⟨hfunctions, hglobals⟩ := roundTrips_members h
  obtain ⟨hf, hg⟩ : (Json.list Func.toJson p.functions).depth ≤ maxDepth - 1 ∧
      (Json.list Global.toJson p.globals).depth ≤ maxDepth - 1 := depth_toJson_le.mp hdepth
  rw [ofJson_toJson_eq, keyedList_list hfunctions, keyedList_list hglobals, if_pos hf, if_pos hg]
  cases repeatedName? [] (p.functions.map Func.name) with
  | some name => rfl
  | none => cases repeatedName? [] (p.globals.map Global.name) <;> rfl

/-- **Lists are keyed without loss.** A text that lists functions and globals is
read exactly if no name comes twice in either list, and it is read as these lists.
Otherwise the error names the first function that repeats the name of an earlier
one, or the first such global if there is no such function. That a finite double
survives its text is assumed of those in the lists. -/
theorem decode_keys {p : Program} {text : String} (htext : Json.read? text = some p.toJson)
    (hdepth : p.toJson.depth ≤ maxDepth) (hfinite : ∀ x ∈ p.doubles, x.isFinite = true)
    (hread : ∀ x ∈ p.doubles, x.isFinite = true → x.ReadBack) :
    ((∃ q, decode text = .ok q) ↔
        (p.functions.map Func.name).Nodup ∧ (p.globals.map Global.name).Nodup) ∧
      (∀ q, decode text = .ok q → q.functions = p.functions ∧ q.globals = p.globals) ∧
      ∀ e, (decode text).mapError Error.parse = .error e ↔
        (∃ f, FirstRepeat Func.name p.functions f ∧ e = .parse (.duplicateFunction f.name)) ∨
        (p.functions.map Func.name).Nodup ∧
          ∃ g, FirstRepeat Global.name p.globals g ∧ e = .parse (.duplicateGlobal g.name) := by
  have hdecode := ofJson_toJson_cases (fun x hx => hread x hx (hfinite x hx)) hdepth
  rw [← decode_of_read? htext] at hdecode
  rw [← repeatedName?_map_eq_none_iff, ← repeatedName?_map_eq_none_iff]
  have hfunction := fun e => exists_firstRepeat_iff Func.name p.functions
    fun name => e = Error.parse (.duplicateFunction name)
  have hglobal := fun e => exists_firstRepeat_iff Global.name p.globals
    fun name => e = Error.parse (.duplicateGlobal name)
  simp only [hfunction, hglobal]
  -- What is left depends on the two searches only.
  cases hf : repeatedName? [] (p.functions.map Func.name) with
  | some name => simp [hdecode, hf, Except.mapError, eq_comm]
  | none =>
      cases hg : repeatedName? [] (p.globals.map Global.name) with
      | some name => simp [hdecode, hf, hg, Except.mapError, eq_comm]
      | none => simp [hdecode, hf, hg, Except.mapError]

/-- `weighing` with two more globals, of which the second repeats the name of the
global that was there. -/
def overweighing : Program :=
  { weighing with
    globals := weighing.globals ++ [
      { name := "scale", ty := .float }, { name := "\t", ty := .float },
      { name := "scale", ty := .double }] }

theorem decode_keys_overweighing :
    Json.read? overweighing.encode = some overweighing.toJson ∧
    overweighing.toJson.depth ≤ maxDepth ∧
    (∀ x ∈ overweighing.doubles, x.isFinite = true) ∧
    (∀ x ∈ overweighing.doubles, x.isFinite = true → x.ReadBack) ∧
    (decode overweighing.encode).mapError Error.parse =
      .error (.parse (.duplicateGlobal "\t")) := by
  have htext : Json.read? overweighing.encode = some overweighing.toJson :=
    Json.read?_pretty overweighing.toJson
  have hdepth : overweighing.toJson.depth ≤ maxDepth := by decide +kernel
  have hdoubles : overweighing.doubles = [⟨0x3ff8000000000000⟩] := rfl
  have hfinite : ∀ x ∈ overweighing.doubles, x.isFinite = true := by
    rw [hdoubles]
    decide
  have hread : ∀ x ∈ overweighing.doubles, x.isFinite = true → x.ReadBack := by
    intro x hx _
    cases List.mem_singleton.mp (hdoubles ▸ hx)
    decide +kernel
  have herror := (decode_keys htext hdepth hfinite hread).2.2
    (.parse (.duplicateGlobal "\t"))
  refine ⟨htext, hdepth, hfinite, hread, herror.mpr (Or.inr ⟨by decide, ?_⟩)⟩
  refine ⟨{ name := "\t", ty := .float }, ⟨overweighing.globals.take 2, overweighing.globals.drop 3,
    rfl, by decide, by decide⟩, rfl⟩

end Program

end ClosedWorld

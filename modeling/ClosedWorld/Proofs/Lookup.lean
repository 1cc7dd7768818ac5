import ClosedWorld.Program

/-!
# Looking symbols up

Which symbols a program defines depends on the names in its two lists and on
nothing else. So a change of functions or globals that keeps the names, in any
order of steps, keeps every lookup as far as it succeeds, and what a lookup
finds is the changed member.
-/

namespace ClosedWorld.Program

theorem function?_name {p : Program} {name : String} {f : Func} (h : p.function? name = some f) :
    f.name = name := by
  have hf := List.find?_some h
  simpa only [beq_iff_eq] using hf

theorem function?_mem {p : Program} {name : String} {f : Func} (h : p.function? name = some f) :
    f ∈ p.functions := List.mem_of_find?_eq_some h

theorem global?_mem {p : Program} {name : String} {g : Global} (h : p.global? name = some g) :
    g ∈ p.globals := List.mem_of_find?_eq_some h

theorem isSome_function? (p : Program) (name : String) :
    (p.function? name).isSome = true ↔ name ∈ p.functions.map Func.name := by
  rw [function?, List.find?_isSome, List.mem_map]
  simp only [beq_iff_eq]

theorem isSome_global? (p : Program) (name : String) :
    (p.global? name).isSome = true ↔ name ∈ p.globals.map Global.name := by
  rw [global?, List.find?_isSome, List.mem_map]
  simp only [beq_iff_eq]

theorem function?_eq_none_iff {p : Program} {name : String} :
    p.function? name = none ↔ name ∉ p.functions.map Func.name := by
  rw [← isSome_function?, Option.not_isSome_iff_eq_none]

theorem global?_eq_none_iff {p : Program} {name : String} :
    p.global? name = none ↔ name ∉ p.globals.map Global.name := by
  rw [← isSome_global?, Option.not_isSome_iff_eq_none]

theorem hasName_eq_false_iff {p : Program} {name : String} :
    p.hasName name = false ↔
      name ∉ p.functions.map Func.name ∧ name ∉ p.globals.map Global.name := by
  rw [hasName, defines, defines, Bool.or_eq_false_iff, Option.isSome_eq_false_iff,
    Option.isSome_eq_false_iff, Option.isNone_iff_eq_none, Option.isNone_iff_eq_none,
    function?_eq_none_iff, global?_eq_none_iff]

/-- Which names are taken depends on the names alone. -/
theorem hasName_congr {p q : Program}
    (hfunctions : q.functions.map Func.name = p.functions.map Func.name)
    (hglobals : q.globals.map Global.name = p.globals.map Global.name) (name : String) :
    q.hasName name = p.hasName name := by
  rw [Bool.eq_iff_iff]
  simp only [hasName, defines, Bool.or_eq_true, isSome_function?, isSome_global?, hfunctions,
    hglobals]

theorem function?_map {p q : Program} {k : Func → Func} (hk : ∀ f, (k f).name = f.name)
    (hq : q.functions = p.functions.map k) (name : String) :
    q.function? name = (p.function? name).map k := by
  rw [function?, hq, List.find?_map, function?]
  simp only [Function.comp_def, hk]

/-- Where no name comes twice, no two members go by one name. -/
theorem filter_name_eq {α : Type} {key : α → String} {as : List α} (h : (as.map key).Nodup)
    (name : String) : as.filter (key · == name) = (as.find? (key · == name)).toList := by
  induction as with
  | nil => rfl
  | cons a as ih =>
      obtain ⟨ha, has⟩ := List.nodup_cons.mp h
      rw [List.filter_cons, List.find?_cons]
      cases hname : key a == name with
      | true =>
          have hrest : as.filter (key · == name) = [] := by
            refine List.filter_eq_nil_iff.mpr fun b hb heq => ha ?_
            rw [beq_iff_eq.mp hname, ← beq_iff_eq.mp heq]
            exact List.mem_map_of_mem hb
          rw [if_pos rfl, hrest]
          rfl
      | false =>
          rw [if_neg Bool.false_ne_true]
          exact ih has

/-- Where no name comes twice, every member is found under its own name and under
no other. -/
theorem find?_name_eq_some_iff {α : Type} {key : α → String} {as : List α}
    (h : (as.map key).Nodup) {name : String} {a : α} :
    as.find? (key · == name) = some a ↔ a ∈ as ∧ key a = name := by
  rw [← Option.mem_toList, ← filter_name_eq h, List.mem_filter, beq_iff_eq]

/-- Where no name comes twice, what is counted under the name of one member is what
that member contributes. -/
theorem countP_flatMap_of_nodup {α β : Type} {key : α → String} {as : List α}
    (h : (as.map key).Nodup) {a : α} (ha : a ∈ as) {k : α → List β} {test : β → Bool}
    (hother : ∀ x, key x ≠ key a → (k x).countP test = 0) :
    (as.flatMap k).countP test = (k a).countP test := by
  induction as with
  | nil => cases ha
  | cons x as ih =>
      obtain ⟨hx, has⟩ := List.nodup_cons.mp h
      rw [List.flatMap_cons, List.countP_append]
      rcases List.mem_cons.mp ha with rfl | ha
      · have hrest : (as.flatMap k).countP test = 0 := by
          refine List.countP_eq_zero.mpr fun d hd => ?_
          obtain ⟨y, hy, hd⟩ := List.mem_flatMap.mp hd
          have hne : key y ≠ key a := fun heq => hx (heq ▸ List.mem_map_of_mem hy)
          exact List.countP_eq_zero.mp (hother y hne) d hd
        rw [hrest, Nat.add_zero]
      · have hne : key x ≠ key a := fun heq => hx (heq ▸ List.mem_map_of_mem ha)
        rw [hother x hne, Nat.zero_add, ih has ha]

/-- A list stays without repeated names when a member with a free name is added. -/
theorem nodup_map_concat {α : Type} {key : α → String} {as : List α} {a : α}
    (h : (as.map key).Nodup) (hfree : key a ∉ as.map key) : ((as ++ [a]).map key).Nodup := by
  rw [List.map_append, List.map_singleton]
  refine List.nodup_append.mpr ⟨h, List.pairwise_singleton _ _, ?_⟩
  intro name hname other hother heq
  rw [List.mem_singleton.mp hother] at heq
  exact hfree (heq ▸ hname)

theorem Keyed.function?_eq_some_iff {p : Program} (h : p.Keyed) {name : String} {f : Func} :
    p.function? name = some f ↔ f ∈ p.functions ∧ f.name = name := find?_name_eq_some_iff h.1

theorem Keyed.global?_eq_some_iff {p : Program} (h : p.Keyed) {name : String} {g : Global} :
    p.global? name = some g ↔ g ∈ p.globals ∧ g.name = name := find?_name_eq_some_iff h.2

theorem defines_of_names {p q : Program}
    (hf : ∀ name ∈ p.functions.map Func.name, name ∈ q.functions.map Func.name)
    (hg : ∀ name ∈ p.globals.map Global.name, name ∈ q.globals.map Global.name) {s : Symbol}
    (h : p.defines s = true) : q.defines s = true := by
  cases s with
  | func name =>
      rw [defines, isSome_function?] at h ⊢
      exact hf name h
  | global name =>
      rw [defines, isSome_global?] at h ⊢
      exact hg name h

end ClosedWorld.Program

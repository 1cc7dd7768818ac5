import ClosedWorld.Error

/-!
# Computations that can fail

Much of the library is written in steps of which the first failing one ends the
whole. These lemmas take such a computation apart. From its result they tell
what its steps have come to, and they do so without a look at the steps
themselves.

Traversals of lists get the same treatment. One that succeeds has succeeded at
every member, and each contributed what it contributes alone; one that fails has
the error of the first member at which it can fail. So the error of nested
traversals can be looked for in the flat list of what they visit.
-/

namespace ClosedWorld

variable {ε α β : Type}

theorem bind_eq_ok {x : Except ε α} {g : α → Except ε β} {b : β} :
    (x >>= g) = .ok b ↔ ∃ a, x = .ok a ∧ g a = .ok b := by
  cases x <;> simp [bind, Except.bind]

theorem bind_eq_error {x : Except ε α} {g : α → Except ε β} {e : ε} :
    (x >>= g) = .error e ↔ x = .error e ∨ ∃ a, x = .ok a ∧ g a = .error e := by
  cases x <;> simp [bind, Except.bind]

theorem map_eq_ok {x : Except ε α} {g : α → β} {b : β} :
    x.map g = .ok b ↔ ∃ a, x = .ok a ∧ g a = b := by
  cases x <;> simp [Except.map]

theorem map_eq_error {x : Except ε α} {g : α → β} {e : ε} :
    x.map g = .error e ↔ x = .error e := by
  cases x <;> simp [Except.map]

theorem pure_eq_ok {a b : α} : (pure a : Except ε α) = .ok b ↔ a = b := by
  simp [pure, Except.pure]

theorem eq_ok_of_toOption {x : Except ε α} {a : α} (h : x.toOption = some a) : x = .ok a := by
  cases x with
  | error => cases h
  | ok => rw [Option.some.inj h]

theorem exists_of_map_toOption {x : Except ε α} {g : α → β} {b : β}
    (h : x.toOption.map g = some b) : ∃ a, x = .ok a ∧ g a = b := by
  obtain ⟨a, ha, hb⟩ := Option.map_eq_some_iff.mp h
  exact ⟨a, eq_ok_of_toOption ha, hb⟩

theorem exists_of_isOk {x : Except ε α} (h : x.isOk = true) : ∃ a, x = .ok a := by
  cases x with
  | error => cases h
  | ok a => exact ⟨a, rfl⟩

/-! ## Traversals -/

theorem filterMapM_eq_ok {g : α → Except ε (Option β)} {l : List α} {bs : List β}
    (h : l.filterMapM g = .ok bs) :
    (∀ a ∈ l, ∃ o, g a = .ok o) ∧
      ∀ k : α → Option β, (∀ a ∈ l, ∀ o, g a = .ok o → o = k a) → bs = l.filterMap k := by
  induction l generalizing bs with
  | nil =>
      cases h
      exact ⟨fun a ha => absurd ha List.not_mem_nil, fun _ _ => rfl⟩
  | cons a l ih =>
      rw [List.filterMapM_cons, bind_eq_ok] at h
      obtain ⟨o, ha, h⟩ := h
      obtain ⟨cs, hl, hbs⟩ : ∃ cs, l.filterMapM g = .ok cs ∧ o.toList ++ cs = bs := by
        cases o with
        | none => exact ⟨bs, h, rfl⟩
        | some b =>
            obtain ⟨cs, hl, hbs⟩ := bind_eq_ok.mp h
            exact ⟨cs, hl, pure_eq_ok.mp hbs⟩
      obtain ⟨hall, hval⟩ := ih hl
      refine ⟨fun x hx => ?_, fun k hk => ?_⟩
      · rcases List.mem_cons.mp hx with rfl | hx
        · exact ⟨o, ha⟩
        · exact hall x hx
      · have hcs : cs = l.filterMap k := hval k fun x hx => hk x (List.mem_cons_of_mem a hx)
        have ho : o = k a := hk a List.mem_cons_self o ha
        rw [List.filterMap_cons, ← ho, ← hcs, ← hbs]
        cases o <;> rfl

/-- A scan to which every member contributes is one with nothing left out. -/
theorem mapM_eq_filterMapM (g : α → Except ε β) (l : List α) :
    l.mapM g = l.filterMapM fun a => (g a).map some := by
  induction l with
  | nil => rfl
  | cons a l ih =>
      rw [List.mapM_cons, List.filterMapM_cons, ih]
      cases g a <;> rfl

theorem mapM_eq_ok {g : α → Except ε β} {l : List α} {bs : List β} (h : l.mapM g = .ok bs) :
    (∀ a ∈ l, ∃ b, g a = .ok b) ∧
      ∀ k : α → β, (∀ a ∈ l, ∀ b, g a = .ok b → b = k a) → bs = l.map k := by
  rw [mapM_eq_filterMapM] at h
  obtain ⟨hall, hval⟩ := filterMapM_eq_ok h
  refine ⟨fun a ha => ?_, fun k hk => ?_⟩
  · obtain ⟨o, ho⟩ := hall a ha
    obtain ⟨b, hb, -⟩ := map_eq_ok.mp ho
    exact ⟨b, hb⟩
  · rw [← List.filterMap_eq_map']
    refine hval (fun a => some (k a)) fun a ha o ho => ?_
    obtain ⟨b, hb, rfl⟩ := map_eq_ok.mp ho
    rw [hk a ha b hb]

/-! ## First errors -/

/-- The error of a computation that has failed. -/
def error? : Except ε α → Option ε
  | .error e => some e
  | .ok _ => none

theorem error?_eq_some_iff {x : Except ε α} {e : ε} : error? x = some e ↔ x = .error e := by
  cases x <;> simp [error?]

theorem error?_map (g : α → β) (x : Except ε α) : error? (x.map g) = error? x := by
  cases x <;> rfl

/-- A scan has the error of the first member that has one. -/
theorem error?_filterMapM (g : α → Except ε (Option β)) (l : List α) :
    error? (l.filterMapM g) = l.findSome? fun a => error? (g a) := by
  induction l with
  | nil => rfl
  | cons a l ih =>
      rw [List.filterMapM_cons, List.findSome?_cons]
      cases ha : g a with
      | error e => rfl
      | ok o =>
          rw [← ih]
          cases o with
          | none => rfl
          | some b => exact error?_map (b :: ·) (l.filterMapM g)

theorem error?_mapM (g : α → Except ε β) (l : List α) :
    error? (l.mapM g) = l.findSome? fun a => error? (g a) := by
  rw [mapM_eq_filterMapM, error?_filterMapM]
  simp only [error?_map]

/-! ## First members -/

/-- Of the members of a list that have a property, this is the first. -/
def IsFirst (P : α → Prop) (l : List α) (a : α) : Prop :=
  P a ∧ ∃ before after, l = before ++ a :: after ∧ ∀ b ∈ before, ¬ P b

theorem exists_isFirst_iff {P : α → Prop} {l : List α} :
    (∃ a, IsFirst P l a) ↔ ∃ a ∈ l, P a := by
  constructor
  · rintro ⟨a, ha, before, after, rfl, -⟩
    exact ⟨a, List.mem_append_right before List.mem_cons_self, ha⟩
  · intro h
    induction l with
    | nil =>
        obtain ⟨a, ha, -⟩ := h
        cases ha
    | cons x l ih =>
        by_cases hx : P x
        · exact ⟨x, hx, [], l, rfl, fun b hb => absurd hb List.not_mem_nil⟩
        · obtain ⟨a, ha, hPa⟩ := h
          have hmem : a ∈ l := (List.mem_cons.mp ha).resolve_left fun heq => hx (heq ▸ hPa)
          obtain ⟨y, hy, before, after, hsplit, hbefore⟩ := ih ⟨a, hmem, hPa⟩
          refine ⟨y, hy, x :: before, after, by rw [hsplit, List.cons_append], fun b hb => ?_⟩
          rcases List.mem_cons.mp hb with rfl | hb
          · exact hx
          · exact hbefore b hb

theorem find?_eq_some_iff_isFirst {test : α → Bool} {P : α → Prop}
    (h : ∀ a, test a = true ↔ P a) {l : List α} {a : α} :
    l.find? test = some a ↔ IsFirst P l a := by
  rw [List.find?_eq_some_iff_append, IsFirst]
  simp only [← h, Bool.not_eq_true', Bool.not_eq_true]

/-- In a list that is in order, the first member with a property is the one that no
other with it comes before. -/
theorem isFirst_iff_of_pairwise {P : α → Prop} {before : α → α → Prop} {l : List α}
    (h : l.Pairwise before) (hasymm : ∀ a b, before a b → ¬ before b a) {a : α} :
    IsFirst P l a ↔ P a ∧ a ∈ l ∧ ∀ b ∈ l, before b a → ¬ P b := by
  constructor
  · rintro ⟨ha, init, rest, rfl, hinit⟩
    refine ⟨ha, List.mem_append_right init List.mem_cons_self, fun b hb hba => ?_⟩
    obtain ⟨-, hrest, -⟩ := List.pairwise_append.mp h
    rcases List.mem_append.mp hb with hb | hb
    · exact hinit b hb
    · rcases List.mem_cons.mp hb with rfl | hb
      · exact absurd hba (hasymm b b hba)
      · exact absurd hba (hasymm a b ((List.pairwise_cons.mp hrest).1 b hb))
  · rintro ⟨ha, hmem, hnone⟩
    obtain ⟨init, rest, rfl⟩ := List.append_of_mem hmem
    refine ⟨ha, init, rest, rfl, fun b hb => ?_⟩
    have hba : before b a := (List.pairwise_append.mp h).2.2 b hb a List.mem_cons_self
    exact hnone b (List.mem_append_left _ hb) hba

/-- A search in nested lists is a search in each of them, one after another. -/
theorem findSome?_flatMap {γ : Type} (g : β → Option γ) (k : α → List β) (l : List α) :
    (l.flatMap k).findSome? g = l.findSome? fun a => (k a).findSome? g := by
  induction l with
  | nil => rfl
  | cons a l ih =>
      rw [List.flatMap_cons, List.findSome?_append, ih, List.findSome?_cons]
      cases (k a).findSome? g <;> rfl

theorem findSome?_eq_some_iff_isFirst {g : α → Option β} {R : α → β → Prop}
    (h : ∀ a b, g a = some b ↔ R a b) {l : List α} {b : β} :
    l.findSome? g = some b ↔ ∃ a, IsFirst (fun a => ∃ b, R a b) l a ∧ R a b := by
  simp only [List.findSome?_eq_some_iff, IsFirst, ← h, Option.eq_none_iff_forall_ne_some,
    ne_eq, not_exists]
  constructor
  · rintro ⟨before, a, after, hsplit, ha, hbefore⟩
    exact ⟨a, ⟨⟨b, ha⟩, before, after, hsplit, hbefore⟩, ha⟩
  · rintro ⟨a, ⟨-, before, after, hsplit, hbefore⟩, ha⟩
    exact ⟨before, a, after, hsplit, ha, hbefore⟩

end ClosedWorld

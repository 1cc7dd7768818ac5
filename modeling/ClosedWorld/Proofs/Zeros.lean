import ClosedWorld.Constant

/-!
# The zero of a type, from both ends

`Constant.zeroOf?` goes from a type to its zero, and `Constant.isZero` looks at a
constant and tells whether it is one. Neither calls the other, and each goes
through the kinds of constants for itself.

Between the two is the type that a float, a null or an aggregate of zeros carries
along. The zero of a type carries one of its own kind, a pointer type if it is a
null and so on (`Constant.Labelled`), while `Constant.isZero` does not look at that
type at all. So the two agree where the label fits (`Constant.isZero_exact`) and
part where it does not: a null of an integer type passes for a zero, and the zero
of that type is a number.
-/

namespace ClosedWorld.Constant

/-- The type that the constant carries as data is one for constants of its kind.
The other constants carry none, or one that any constant may have. -/
def Labelled : Constant → Prop
  | .float ty _ => ty = .float ∨ ty = .double
  | .null ty => ∃ pointee, ty = .ptr pointee
  | .zeroInit ty => (∃ elem len, ty = .array elem len) ∨ ∃ fields, ty = .struct fields
  | .int .. | .funcAddr _ | .globalAddr _ | .bitcast .. | .array .. => True

variable {ty : Ty} {c zero : Constant}

theorem isZero_zeroOf? (h : zeroOf? ty = some zero) : zero.isZero = true := by
  cases ty <;> cases h <;> rfl

theorem type?_zeroOf? (h : zeroOf? ty = some zero) : zero.type? = some ty := by
  cases ty <;> cases h <;> rfl

theorem labelled_zeroOf? (h : zeroOf? ty = some zero) : zero.Labelled := by
  cases ty with
  | void | func => cases h
  | int bits =>
      cases h
      exact trivial
  | float =>
      cases h
      exact Or.inl rfl
  | double =>
      cases h
      exact Or.inr rfl
  | ptr pointee =>
      cases h
      exact ⟨pointee, rfl⟩
  | array elem len =>
      cases h
      exact Or.inl ⟨elem, len, rfl⟩
  | struct fields =>
      cases h
      exact Or.inr ⟨fields, rfl⟩

theorem isSome_zeroOf? (ty : Ty) : (zeroOf? ty).isSome = ty.isFirstClass := by
  cases ty <;> rfl

/-- A constant that passes for a zero and has a type of its kind is the zero of that
type. -/
theorem exists_zeroOf?_of_isZero (hzero : c.isZero = true) (hlabel : c.Labelled) :
    ∃ ty, c.type? = some ty ∧ zeroOf? ty = some c := by
  cases c with
  | int bits value =>
      have hvalue : value = 0 := beq_iff_eq.mp hzero
      subst hvalue
      exact ⟨.int bits, rfl, rfl⟩
  | float ty value =>
      have hvalue : value = .zero := beq_iff_eq.mp hzero
      subst hvalue
      rcases hlabel with rfl | rfl
      · exact ⟨.float, rfl, rfl⟩
      · exact ⟨.double, rfl, rfl⟩
  | null ty =>
      obtain ⟨pointee, rfl⟩ := hlabel
      exact ⟨.ptr pointee, rfl, rfl⟩
  | zeroInit ty =>
      rcases hlabel with ⟨elem, len, rfl⟩ | ⟨fields, rfl⟩
      · exact ⟨.array elem len, rfl, rfl⟩
      · exact ⟨.struct fields, rfl, rfl⟩
  | funcAddr | globalAddr | bitcast | array => cases hzero

/-- **A zero is recognised by its form, if its label fits.** A constant is the zero of
the type that it has exactly if it passes for a zero and carries a type of its kind.
And there are such zeros for the first-class types, each with the type that it is
the zero of, and for no others. -/
theorem isZero_exact (c : Constant) (ty : Ty) :
    ((∃ t, c.type? = some t ∧ zeroOf? t = some c) ↔ c.isZero = true ∧ c.Labelled) ∧
      (zeroOf? ty = none ↔ ty.isFirstClass = false) ∧
      (ty.isFirstClass = true ↔ ∃ zero, zeroOf? ty = some zero ∧ zero.type? = some ty) := by
  refine ⟨⟨?_, ?_⟩, ?_, ?_, ?_⟩
  · rintro ⟨t, -, hc⟩
    exact ⟨isZero_zeroOf? hc, labelled_zeroOf? hc⟩
  · rintro ⟨hzero, hlabel⟩
    exact exists_zeroOf?_of_isZero hzero hlabel
  · rw [← isSome_zeroOf?, Option.isSome_eq_false_iff, Option.isNone_iff_eq_none]
  · intro hty
    rw [← isSome_zeroOf?] at hty
    obtain ⟨zero, hzero⟩ := Option.isSome_iff_exists.mp hty
    exact ⟨zero, hzero, type?_zeroOf? hzero⟩
  · rintro ⟨zero, hzero, -⟩
    rw [← isSome_zeroOf?, hzero]
    rfl

/-- The label counts: an aggregate of zeros at an integer type passes for a zero, but
it is not the zero of that type, nor of any other. -/
theorem not_isZero_exact_unlabelled :
    let c : Constant := .zeroInit (.int 32)
    c.isZero = true ∧ c.type? = some (.int 32) ∧ zeroOf? (.int 32) = some (.int 32 0) ∧
      ¬ ∃ ty, c.type? = some ty ∧ zeroOf? ty = some c := by
  intro c
  refine ⟨rfl, rfl, rfl, ?_⟩
  rintro ⟨ty, -, hzero⟩
  rcases labelled_zeroOf? hzero with ⟨elem, len, h⟩ | ⟨fields, h⟩
  · cases h
  · cases h

end ClosedWorld.Constant

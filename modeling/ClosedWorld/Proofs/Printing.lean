import ClosedWorld.Proofs.Induction
import Mathlib.Data.List.Induction

/-!
# Printed types are unambiguous

Two types that print alike are the same type (`Ty.render_inj`).

Read from the left, a printed type does not say where it ends. Behind `i8` more
digits may follow, or a star, or a list of parameters, and then what has been read
is only the inner part of another type. Read from the right it does. The last
character tells pointers, arrays, structs and signatures apart, each of them ends
in its own mark, and before the mark comes the text of a type again or a row of
such texts. So the induction is over texts that *end* in a printed type: if two
such texts are equal, so are the types and what stands before them
(`Legible`). Nothing has to be said about what may stand there.

A row is read in the same way, its last entry first. It is over when the text
before an entry is the opening of the row and not a comma.
-/

namespace ClosedWorld

/-- A text that ends in the text of `x` ends in no other text of the kind, and in
this one only in one way. -/
def Legible {α : Type} (text : α → List Char) (x : α) : Prop :=
  ∀ y a b, a ++ text x = b ++ text y → a = b ∧ x = y

/-! ## Digits and rows -/

theorem eq_of_append_cons_eq {test : Char → Bool} {x y : Char} {a b u v : List Char}
    (hx : test x = false) (hy : test y = false) (hu : ∀ c ∈ u, test c = true)
    (hv : ∀ c ∈ v, test c = true) (h : a ++ x :: u = b ++ y :: v) : a = b ∧ u = v := by
  rcases List.append_eq_append_iff.mp h with ⟨as, rfl, has⟩ | ⟨bs, rfl, hbs⟩
  · cases as with
    | nil =>
        cases has
        exact ⟨(List.append_nil a).symm, rfl⟩
    | cons c cs =>
        obtain ⟨-, rfl⟩ := List.cons.inj has
        have := hu y (List.mem_append_right cs List.mem_cons_self)
        rw [hy] at this
        cases this
  · cases bs with
    | nil =>
        cases hbs
        exact ⟨List.append_nil b, rfl⟩
    | cons c cs =>
        obtain ⟨-, rfl⟩ := List.cons.inj hbs
        have := hv x (List.mem_append_right cs List.mem_cons_self)
        rw [hx] at this
        cases this

/-- A number that ends a text is all of its last digits. -/
theorem eq_of_append_toDigits_eq {x : Char} {a b : List Char} {m n : Nat}
    (hx : x.isDigit = false) (h : a ++ x :: Nat.toDigits 10 m = b ++ x :: Nat.toDigits 10 n) :
    a = b ∧ m = n := by
  have hdigits : ∀ k, ∀ c ∈ Nat.toDigits 10 k, c.isDigit = true := fun k c hc =>
    Nat.isDigit_of_mem_toDigits (by decide) (by decide) hc
  obtain ⟨hab, hmn⟩ := eq_of_append_cons_eq hx hx (hdigits m) (hdigits n) h
  refine ⟨hab, ?_⟩
  have hvalue := congrArg (Nat.ofDigitChars 10 · 0) hmn
  simpa using hvalue

theorem intercalate_concat {sep w : List Char} {ws : List (List Char)} (h : ws ≠ []) :
    sep.intercalate (ws ++ [w]) = sep.intercalate ws ++ sep ++ w := by
  induction ws with
  | nil => exact absurd rfl h
  | cons w' ws ih =>
      cases ws with
      | nil => simp [List.intercalate_cons_cons]
      | cons w'' ws =>
          have hrest := ih nofun
          rw [List.cons_append] at hrest
          rw [List.cons_append, List.cons_append, List.intercalate_cons_cons, hrest,
            List.intercalate_cons_cons]
          simp only [List.append_assoc]

section Rows

variable {α : Type} {text : α → List Char} {opening sep : List Char}

/-- What stands before the last entry of a row, after its opening. -/
def rowBefore (text : α → List Char) (sep : List Char) : List α → List Char
  | [] => []
  | x :: xs => sep.intercalate ((x :: xs).map text) ++ sep

theorem intercalate_map_concat (xs : List α) (x : α) :
    sep.intercalate ((xs ++ [x]).map text) = rowBefore text sep xs ++ text x := by
  rw [List.map_append, List.map_singleton]
  cases xs with
  | nil => simp [rowBefore]
  | cons y xs => rw [intercalate_concat (by simp), rowBefore]

/-- A row of legible texts is legible, if its opening can be mistaken neither for
the end of an entry nor for what parts two entries. -/
theorem eq_of_append_row_eq (hopening : ∀ y a b, a ++ opening ≠ b ++ text y)
    (hsep : ∀ a b, a ++ opening ≠ b ++ sep) {xs : List α} (hxs : ∀ x ∈ xs, Legible text x)
    {ys : List α} {a b : List Char}
    (h : a ++ opening ++ sep.intercalate (xs.map text) =
      b ++ opening ++ sep.intercalate (ys.map text)) : a = b ∧ xs = ys := by
  induction xs using List.reverseRecOn generalizing ys with
  | nil =>
      rcases List.eq_nil_or_concat ys with rfl | ⟨ys, y, rfl⟩
      · exact ⟨List.append_cancel_right (List.append_cancel_right h), rfl⟩
      · rw [List.concat_eq_append, intercalate_map_concat, ← List.append_assoc] at h
        simp only [List.map_nil, List.intercalate_nil, List.append_nil] at h
        exact absurd h (hopening y a _)
  | append_singleton xs x ih =>
      rcases List.eq_nil_or_concat ys with rfl | ⟨ys, y, rfl⟩
      · rw [intercalate_map_concat, ← List.append_assoc] at h
        simp only [List.map_nil, List.intercalate_nil, List.append_nil] at h
        exact absurd h.symm (hopening x b _)
      · rw [List.concat_eq_append, intercalate_map_concat, intercalate_map_concat,
          ← List.append_assoc, ← List.append_assoc] at h
        obtain ⟨hbefore, rfl⟩ := hxs x (List.mem_append_right xs List.mem_cons_self) y _ _ h
        have hinit : ∀ x ∈ xs, Legible text x := fun x hx => hxs x (List.mem_append_left _ hx)
        cases xs with
        | nil =>
            cases ys with
            | nil => exact ⟨List.append_cancel_right (List.append_cancel_right hbefore), rfl⟩
            | cons y ys =>
                rw [rowBefore, rowBefore, List.append_nil, ← List.append_assoc] at hbefore
                exact absurd hbefore (hsep _ _)
        | cons x' xs =>
            cases ys with
            | nil =>
                rw [rowBefore, rowBefore, List.append_nil, ← List.append_assoc] at hbefore
                exact absurd hbefore.symm (hsep _ _)
            | cons y ys =>
                rw [rowBefore, rowBefore, ← List.append_assoc, ← List.append_assoc] at hbefore
                obtain ⟨hab, hrest⟩ := ih hinit (List.append_cancel_right hbefore)
                rw [hrest, List.concat_eq_append]
                exact ⟨hab, rfl⟩

end Rows

/-! ## The characters of a printed type -/

namespace Ty

/-- The characters of a printed type. -/
def chars (t : Ty) : List Char := t.render.toList

/-- The entries of a list of parameters; the last one of an open list is no type. -/
def entries (params : List Ty) (variadic : Bool) : List (Option Ty) :=
  params.map some ++ if variadic then [none] else []

/-- The characters of an entry. -/
def entryChars : Option Ty → List Char
  | some t => t.chars
  | none => "...".toList

theorem chars_int (bits : UInt32) : chars (.int bits) = 'i' :: Nat.toDigits 10 bits.toNat := by
  rw [chars, render, String.toList_append, Nat.toString_eq_repr, Nat.toList_repr]
  rfl

theorem chars_ptr (t : Ty) : chars (.ptr t) = t.chars ++ ['*'] := by
  rw [chars, render, String.toList_append]
  rfl

theorem chars_array (elem : Ty) (len : UInt64) :
    chars (.array elem len) =
      '[' :: Nat.toDigits 10 len.toNat ++ " x ".toList ++ elem.chars ++ [']'] := by
  rw [chars, render, String.toList_append, String.toList_append, String.toList_append,
    String.toList_append, Nat.toString_eq_repr, Nat.toList_repr]
  rfl

theorem chars_struct (fields : List Ty) :
    chars (.struct fields) =
      "\x7b ".toList ++ ", ".toList.intercalate (fields.map chars) ++ " \x7d".toList := by
  rw [chars, render, String.toList_append, String.toList_append, String.toList_intercalate,
    renderAll_eq_map, List.map_map]
  rfl

theorem chars_func (ret : Ty) (params : List Ty) (variadic : Bool) :
    chars (.func ret params variadic) =
      ret.chars ++ " (".toList
        ++ ", ".toList.intercalate ((entries params variadic).map entryChars) ++ [')'] := by
  have hentries : (if variadic then params.map render ++ ["..."] else params.map render).map
      String.toList = (entries params variadic).map entryChars := by
    cases variadic <;> simp [entries, entryChars, chars]
  rw [chars, render, String.toList_append, String.toList_append, String.toList_append, parameters,
    String.toList_intercalate, renderAll_eq_map, hentries]
  rfl

theorem entries_inj {params params' : List Ty} {variadic variadic' : Bool}
    (h : entries params variadic = entries params' variadic') :
    params = params' ∧ variadic = variadic' := by
  have hparams : ∀ ps v, (entries ps v).filterMap id = ps := by
    intro ps v
    cases v <;> simp [entries, List.filterMap_map]
  have hvariadic : ∀ ps v, (entries ps v).any Option.isNone = v := by
    intro ps v
    cases v <;> simp [entries]
  exact ⟨by rw [← hparams params variadic, h, hparams],
    by rw [← hvariadic params variadic, h, hvariadic]⟩

theorem mem_of_mem_entries {params : List Ty} {variadic : Bool} {t : Ty}
    (h : some t ∈ entries params variadic) : t ∈ params := by
  cases variadic <;> simpa [entries] using h

/-! ## The last character -/

/-- The last character of a printed type. Any digit stands for all of them. -/
def mark : Ty → Char
  | .void => 'd'
  | .int _ => '0'
  | .float => 't'
  | .double => 'e'
  | .ptr _ => '*'
  | .array .. => ']'
  | .struct _ => '\x7d'
  | .func .. => ')'

/-- A character, or a zero for a digit. -/
def blurred (c : Char) : Char := if c.isDigit then '0' else c

theorem exists_chars_eq (t : Ty) : ∃ cs c, t.chars = cs ++ [c] ∧ blurred c = t.mark := by
  cases t with
  | void => exact ⟨"voi".toList, 'd', rfl, rfl⟩
  | int bits =>
      have hne : Nat.toDigits 10 bits.toNat ≠ [] := Nat.toDigits_ne_nil
      have hdigit : ((Nat.toDigits 10 bits.toNat).getLast hne).isDigit = true :=
        Nat.isDigit_of_mem_toDigits (by decide) (by decide) (List.getLast_mem hne)
      refine ⟨'i' :: (Nat.toDigits 10 bits.toNat).dropLast, _, ?_, if_pos hdigit⟩
      rw [chars_int, List.cons_append, List.dropLast_concat_getLast hne]
  | float => exact ⟨"floa".toList, 't', rfl, rfl⟩
  | double => exact ⟨"doubl".toList, 'e', rfl, rfl⟩
  | ptr t => exact ⟨_, '*', chars_ptr t, rfl⟩
  | array elem len => exact ⟨_, ']', chars_array elem len, rfl⟩
  | struct fields =>
      refine ⟨"\x7b ".toList ++ ", ".toList.intercalate (fields.map chars) ++ [' '], '\x7d', ?_, rfl⟩
      rw [chars_struct, List.append_assoc _ [' ']]
      rfl
  | func ret params variadic => exact ⟨_, ')', chars_func ret params variadic, rfl⟩

theorem last_eq {a b : List Char} {c d : Char} (h : a ++ [c] = b ++ [d]) : c = d :=
  (List.cons.inj (List.append_inj_right' h rfl)).1

/-- The last character of a text that ends in a printed type tells the kind of the
type. -/
theorem mark_of_append_eq {t : Ty} {a b : List Char} {c : Char}
    (h : a ++ t.chars = b ++ [c]) : t.mark = blurred c := by
  obtain ⟨cs, c', hchars, hmark⟩ := t.exists_chars_eq
  rw [hchars, ← List.append_assoc] at h
  rw [← hmark, last_eq h]

theorem mark_eq {s t : Ty} {a b : List Char} (h : a ++ s.chars = b ++ t.chars) :
    s.mark = t.mark := by
  obtain ⟨cs, c, hchars, hmark⟩ := t.exists_chars_eq
  rw [hchars, ← List.append_assoc] at h
  rw [mark_of_append_eq h, hmark]

/-- No printed type ends in a dot, a blank or an opening bracket. -/
theorem append_chars_ne (t : Ty) (a b : List Char) (c : Char) (hc : c ∈ ['.', ' ', '(']) :
    a ++ t.chars ≠ b ++ [c] := by
  intro h
  have hmark := mark_of_append_eq h
  simp only [List.mem_cons, List.not_mem_nil, or_false] at hc
  rcases hc with rfl | rfl | rfl
  all_goals cases t <;> simp [mark, blurred] at hmark

/-! ## Types -/

theorem legible_entry {e : Option Ty} (h : ∀ t, e = some t → Legible chars t) :
    Legible entryChars e := by
  have hdots : ∀ (t : Ty) (a b : List Char), a ++ t.chars ≠ b ++ entryChars none := by
    intro t a b h
    exact append_chars_ne t a (b ++ ['.', '.']) '.' (by decide) (by simpa [entryChars] using h)
  intro e' a b heq
  cases e with
  | none =>
      cases e' with
      | none => exact ⟨List.append_cancel_right heq, rfl⟩
      | some t => exact absurd heq.symm (hdots t b a)
  | some s =>
      cases e' with
      | none => exact absurd heq (hdots s a b)
      | some t =>
          obtain ⟨hab, rfl⟩ := h s rfl t a b heq
          exact ⟨hab, rfl⟩

theorem legible_fields {ss ts : List Ty} (h : ∀ s ∈ ss, Legible chars s) {a b : List Char}
    (heq : a ++ "\x7b ".toList ++ ", ".toList.intercalate (ss.map chars) =
      b ++ "\x7b ".toList ++ ", ".toList.intercalate (ts.map chars)) : a = b ∧ ss = ts := by
  refine eq_of_append_row_eq (fun t a b h => ?_) (fun a b h => ?_) h heq
  · exact append_chars_ne t b (a ++ ['\x7b']) ' ' (by decide) (by simpa using h.symm)
  · exact absurd (List.append_inj_right' h rfl) (by decide)

theorem legible_entries {es es' : List (Option Ty)} (h : ∀ e ∈ es, Legible entryChars e)
    {a b : List Char}
    (heq : a ++ " (".toList ++ ", ".toList.intercalate (es.map entryChars) =
      b ++ " (".toList ++ ", ".toList.intercalate (es'.map entryChars)) : a = b ∧ es = es' := by
  refine eq_of_append_row_eq (fun e a b h => ?_) (fun a b h => ?_) h heq
  · cases e with
    | none =>
        have hlast : a ++ [' '] ++ ['('] = b ++ ['.', '.'] ++ ['.'] := by
          simpa [entryChars] using h
        exact absurd (last_eq hlast) (by decide)
    | some t =>
        exact append_chars_ne t b (a ++ [' ']) '(' (by decide) (by simpa [entryChars] using h.symm)
  · exact absurd (List.append_inj_right' h rfl) (by decide)

/-- No printed type is the end of another one. -/
theorem legible (s : Ty) : Legible chars s := by
  induction s with
  | void | float | double =>
      intro t a b h
      have hmark := mark_eq h
      cases t <;> simp [mark] at hmark
      exact ⟨List.append_cancel_right h, rfl⟩
  | int bits =>
      intro t a b h
      cases t with
      | int bits' =>
          rw [chars_int, chars_int] at h
          obtain ⟨hab, hbits⟩ := eq_of_append_toDigits_eq (by decide) h
          exact ⟨hab, congrArg Ty.int (UInt32.toNat_inj.mp hbits)⟩
      | _ => exact absurd (mark_eq h) (by simp [mark])
  | ptr s ih =>
      intro t a b h
      cases t with
      | ptr t =>
          rw [chars_ptr, chars_ptr, ← List.append_assoc, ← List.append_assoc] at h
          obtain ⟨hab, rfl⟩ := ih t a b (List.append_cancel_right h)
          exact ⟨hab, rfl⟩
      | _ => exact absurd (mark_eq h) (by simp [mark])
  | array elem len ih =>
      intro t a b h
      cases t with
      | array elem' len' =>
          simp only [chars_array, ← List.append_assoc] at h
          obtain ⟨hbefore, rfl⟩ := ih elem' _ _ (List.append_cancel_right h)
          obtain ⟨hab, hlen⟩ :=
            eq_of_append_toDigits_eq (by decide) (List.append_cancel_right hbefore)
          exact ⟨hab, congrArg (Ty.array elem) (UInt64.toNat_inj.mp hlen)⟩
      | _ => exact absurd (mark_eq h) (by simp [mark])
  | struct fields ih =>
      intro t a b h
      cases t with
      | struct fields' =>
          simp only [chars_struct, ← List.append_assoc] at h
          obtain ⟨hab, rfl⟩ := legible_fields ih (List.append_cancel_right h)
          exact ⟨hab, rfl⟩
      | _ => exact absurd (mark_eq h) (by simp [mark])
  | func ret params variadic ihret ihparams =>
      intro t a b h
      cases t with
      | func ret' params' variadic' =>
          simp only [chars_func, ← List.append_assoc] at h
          have hentries : ∀ e ∈ entries params variadic, Legible entryChars e :=
            fun e he => legible_entry fun t ht => ihparams t (mem_of_mem_entries (ht ▸ he))
          obtain ⟨hret, hrow⟩ := legible_entries hentries (List.append_cancel_right h)
          obtain ⟨hab, rfl⟩ := ihret ret' a b hret
          obtain ⟨rfl, rfl⟩ := entries_inj hrow
          exact ⟨hab, rfl⟩
      | _ => exact absurd (mark_eq h) (by simp [mark])

/-- **Printed types are unambiguous.** Types print alike only if they are the same. -/
theorem render_inj {s t : Ty} : s.render = t.render ↔ s = t := by
  refine ⟨fun h => ?_, congrArg render⟩
  have hchars : [] ++ s.chars = [] ++ t.chars := congrArg String.toList h
  exact (s.legible t [] [] hchars).2

end Ty

end ClosedWorld

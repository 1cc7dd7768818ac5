import ClosedWorld.Json.Reader
import ClosedWorld.Json.Writer
import ClosedWorld.Proofs.Induction
import Mathlib.Tactic.SplitIfs

/-!
# Reading back the tokens of a tree

What the writer puts between the tokens depends on the layout, and the reader
does not care: it may be any number of blanks. So what is written in any layout
of blanks is read back as the same tokens, and the tokens are a function of the
tree alone (`Json.tokens`).

The one thing to watch is a number. It has no end of its own, and when its last
digit has been read the machine still holds it. `Lexer.Holds` counts it as read
already, which is right as long as the next character does not continue it; and
the writer puts a blank, a comma or a bracket after every value.
-/

namespace ClosedWorld.Json

/-! ## The tokens of a tree -/

mutual

/-- The tokens of a tree, in the order of its text. -/
def tokens : Json → List Token
  | .null => [.null]
  | .bool value => [.bool value]
  | .num value => [.num value]
  | .str value => [.str value]
  | .arr [] => [.openArr, .closeArr]
  | .arr (item :: items) => .openArr :: tokens item ++ itemTokens items ++ [.closeArr]
  | .obj [] => [.openObj, .closeObj]
  | .obj ((key, value) :: members) =>
      .openObj :: .str key :: .colon :: tokens value ++ memberTokens members ++ [.closeObj]

/-- The tokens of the items after the first, each behind its comma. -/
def itemTokens : List Json → List Token
  | [] => []
  | item :: items => .comma :: tokens item ++ itemTokens items

/-- The tokens of the members after the first, each behind its comma. -/
def memberTokens : List (Literal × Json) → List Token
  | [] => []
  | (key, value) :: members =>
      .comma :: .str key :: .colon :: tokens value ++ memberTokens members

end

/-! ## Numbers -/

end Json

theorem Digit.ofChar?_toChar (d : Digit) : ofChar? d.toChar = some d := by
  revert d
  decide

namespace Json

namespace PartialNumeral

theorem next?_toChar (n : PartialNumeral) (d : Digit) : n.next? d.toChar = n.digit? d := by
  unfold next?
  rw [Digit.ofChar?_toChar]

theorem foldlM_digit (n : PartialNumeral) (ds : List Digit) :
    (ds.map Digit.toChar).foldlM next? n = ds.foldlM digit? n := by
  rw [List.foldlM_map]
  exact congrArg (fun f => List.foldlM f n ds) (funext fun n => funext fun d => next?_toChar n d)

theorem toDigits_eq (w : Nat) :
    Nat.toDigits 10 w =
      if w < 10 then [Digit.toChar (Fin.ofNat 10 w)]
      else Nat.toDigits 10 (w / 10) ++ [Digit.toChar (Fin.ofNat 10 w)] := by
  split
  next h => rw [Nat.toDigits_of_lt_base h, Digit.toChar, Fin.val_ofNat, Nat.mod_eq_of_lt h]
  next h => rw [Nat.toDigits_of_base_le (by omega) (by omega), Digit.toChar, Fin.val_ofNat]

/-- The part that a whole number ends in. -/
def wholePart (w : Nat) : NumeralPart := if w = 0 then .zero else .whole

theorem foldlM_whole (w : Nat) (negative : Bool) :
    (Nat.toDigits 10 w).foldlM next? { negative } =
      some { part := wholePart w, negative, whole := w } := by
  induction w using Nat.strongRecOn with
  | ind w ih =>
      rw [toDigits_eq]
      split
      next h => simp [next?_toChar, digit?, wholePart, Nat.mod_eq_of_lt h]
      next h =>
          have hpos : w / 10 ≠ 0 := by omega
          rw [List.foldlM_append, ih _ (by omega), wholePart, if_neg hpos, wholePart,
            if_neg (by omega)]
          simp [next?_toChar, digit?]
          omega

theorem foldlM_frac (ds : List Digit) {n : PartialNumeral} (h : n.part = .point ∨ n.part = .frac)
    (hds : ds ≠ []) :
    (ds.map Digit.toChar).foldlM next? n =
      some { n with part := .frac, frac := ds.reverse ++ n.frac } := by
  rw [foldlM_digit]
  induction ds generalizing n with
  | nil => exact absurd rfl hds
  | cons d ds ih =>
      have hd : n.digit? d = some { n with part := .frac, frac := d :: n.frac } := by
        rcases h with h | h
        · rw [digit?, h]
        · rw [digit?, h]
      rw [List.foldlM_cons, hd, Option.bind_eq_bind, Option.bind_some]
      by_cases hnil : ds = []
      · subst hnil
        rfl
      · rw [ih (Or.inr rfl) hnil, List.reverse_cons, List.append_assoc]
        rfl

theorem foldlM_exponent (w : Nat) {n : PartialNumeral} (h : n.part = .mark ∨ n.part = .markSign)
    (hzero : n.exponent = 0) :
    (Nat.toDigits 10 w).foldlM next? n = some { n with part := .exponent, exponent := w } := by
  induction w using Nat.strongRecOn with
  | ind w ih =>
      rw [toDigits_eq]
      split
      next hw =>
          rcases h with h | h <;> simp [next?_toChar, digit?, h, hzero, Nat.mod_eq_of_lt hw]
      next hw =>
          rw [List.foldlM_append, ih _ (by omega)]
          simp [next?_toChar, digit?]
          omega

/-- The digits after a point, with the point. -/
def fracChars (ds : List Digit) : List Char := if ds = [] then [] else '.' :: ds.map Digit.toChar

/-- An exponent, with its letter and its sign. -/
def exponentChars : Option Int → List Char
  | none => []
  | some e => 'e' :: (if e < 0 then '-' else '+') :: Nat.toDigits 10 e.natAbs

theorem toList_render (n : Numeral) :
    (n.render true).toList = (if n.negative then ['-'] else [])
      ++ (Nat.toDigits 10 n.whole ++ fracChars n.frac ++ exponentChars n.exponent) := by
  have hrepr : ∀ w : Nat, (toString w).toList = Nat.toDigits 10 w := fun w => by
    rw [Nat.toString_eq_repr, Nat.repr_eq_ofList_toDigits, String.toList_ofList]
  have hsign : (if n.negative then "-" else "").toList = if n.negative then ['-'] else [] := by
    split <;> rfl
  have hfrac : (if n.frac = [] then "" else "." ++ String.ofList (n.frac.map Digit.toChar)).toList =
      fracChars n.frac := by
    rw [fracChars]
    split
    · rfl
    · rw [String.toList_append, String.toList_ofList, String.toList_ofList]
      rfl
  rw [Numeral.render, String.toList_append, String.toList_append, String.toList_append, hsign,
    hrepr, hfrac, List.append_assoc, List.append_assoc, List.append_assoc]
  congr 3
  cases n.exponent with
  | none => rfl
  | some e =>
      simp only [Numeral.exponentText, exponentChars]
      rw [String.toList_append, String.toList_append, hrepr]
      split <;> rfl

/-- The part that a number without an exponent ends in. -/
def lastPart (w : Nat) (ds : List Digit) : NumeralPart := if ds = [] then wholePart w else .frac

theorem wholePart_eq (w : Nat) : wholePart w = .zero ∨ wholePart w = .whole := by
  rw [wholePart]
  split
  · exact Or.inl rfl
  · exact Or.inr rfl

theorem lastPart_eq (w : Nat) (ds : List Digit) :
    lastPart w ds = .zero ∨ lastPart w ds = .whole ∨ lastPart w ds = .frac := by
  rw [lastPart]
  split
  · exact (wholePart_eq w).imp id Or.inl
  · exact Or.inr (Or.inr rfl)

theorem foldlM_fracChars (w : Nat) (negative : Bool) (ds : List Digit) :
    (fracChars ds).foldlM next? { part := wholePart w, negative, whole := w } =
      some { part := lastPart w ds, negative, whole := w, frac := ds.reverse } := by
  rw [fracChars, lastPart]
  by_cases hds : ds = []
  · rw [if_pos hds, if_pos hds, hds]
    rfl
  · have hpoint : next? { part := wholePart w, negative, whole := w } '.' =
        some { part := .point, negative, whole := w } := by
      rcases wholePart_eq w with h | h <;> rw [h] <;> rfl
    rw [if_neg hds, if_neg hds, List.foldlM_cons, hpoint, Option.bind_eq_bind, Option.bind_some,
      foldlM_frac ds (Or.inl rfl) hds, List.append_nil]

theorem foldlM_exponentChars {part : NumeralPart} (h : part = .zero ∨ part = .whole ∨ part = .frac)
    (negative : Bool) (whole : Nat) (frac : List Digit) (e : Option Int) :
    ∃ m, (exponentChars e).foldlM next? { part, negative, whole, frac } = some m ∧
      m.finish? = some { negative, whole, frac := frac.reverse, exponent := e } := by
  cases e with
  | none =>
      refine ⟨_, rfl, ?_⟩
      rcases h with rfl | rfl | rfl <;> rfl
  | some e =>
      have hmark : next? { part, negative, whole, frac } 'e' =
          some { part := .mark, negative, whole, frac } := by
        rcases h with rfl | rfl | rfl <;> rfl
      rw [exponentChars, List.foldlM_cons, hmark, Option.bind_eq_bind, Option.bind_some,
        List.foldlM_cons]
      by_cases hneg : e < 0
      · rw [if_pos hneg]
        refine ⟨_, foldlM_exponent e.natAbs (Or.inr rfl) rfl, ?_⟩
        have he : -(e.natAbs : Int) = e := by omega
        simp only [finish?, if_true, he]
      · rw [if_neg hneg]
        refine ⟨_, foldlM_exponent e.natAbs (Or.inr rfl) rfl, ?_⟩
        have he : (e.natAbs : Int) = e := by omega
        simp only [finish?, Bool.false_eq_true, if_false, he]

/-- After the sign, all of a numeral can be read, and the number can end there. -/
theorem foldlM_unsigned (n : Numeral) :
    ∃ m, (Nat.toDigits 10 n.whole ++ fracChars n.frac ++ exponentChars n.exponent).foldlM next?
        { negative := n.negative } = some m ∧ m.finish? = some n := by
  obtain ⟨m, hm, hfinish⟩ := foldlM_exponentChars (lastPart_eq n.whole n.frac) n.negative n.whole
    n.frac.reverse n.exponent
  refine ⟨m, ?_, ?_⟩
  · rw [List.foldlM_append, List.foldlM_append, foldlM_whole, Option.bind_eq_bind, Option.bind_some,
      foldlM_fracChars, Option.bind_some, hm]
  · rw [hfinish, List.reverse_reverse]

theorem toDigits_eq_cons (w : Nat) : ∃ (d : Digit) (cs : List Char),
    Nat.toDigits 10 w = d.toChar :: cs := by
  induction w using Nat.strongRecOn with
  | ind w ih =>
      rw [toDigits_eq]
      split
      next => exact ⟨_, [], rfl⟩
      next =>
          obtain ⟨d, cs, hcs⟩ := ih (w / 10) (by omega)
          exact ⟨d, cs ++ [Digit.toChar (Fin.ofNat 10 w)], by rw [hcs, List.cons_append]⟩

end PartialNumeral

namespace Lexer

/-- The machine has read these tokens, the last one first. If that one is a
number, it may not have been ended. -/
inductive Holds : Lexer → List Token → Prop where
  | between {ts : List Token} : Holds { tokens := ts } ts
  | num {ts : List Token} {n : PartialNumeral} {numeral : Numeral} :
      n.finish? = some numeral → Holds { tokens := ts, mode := .num n } (.num numeral :: ts)

/-- Blanks that may stand between tokens. -/
def IsBlank (c : Char) : Prop := c = ' ' ∨ c = '\t' ∨ c = '\r' ∨ c = '\n'

/-- The characters that end a number. -/
def IsDelimiter (c : Char) : Prop := IsBlank c ∨ c = ',' ∨ c = ']' ∨ c = '\x7d'

theorem next?_delimiter {c : Char} (h : IsDelimiter c) (n : PartialNumeral) : n.next? c = none := by
  obtain ⟨part, _, _, _, _, _⟩ := n
  rcases h with (rfl | rfl | rfl | rfl) | rfl | rfl | rfl <;> cases part <;> rfl

theorem start_blank {c : Char} (h : IsBlank c) (ts : List Token) :
    start ts c = { tokens := ts } := by
  rcases h with rfl | rfl | rfl | rfl <;> rfl

/-- After a value a delimiter starts the next token, a number or not. -/
theorem Holds.next {s : Lexer} {ts : List Token} (h : s.Holds ts) {c : Char} (hc : IsDelimiter c) :
    s.next c = start ts c := by
  cases h with
  | between => rfl
  | num hfinish => simp only [Lexer.next, next?_delimiter hc, hfinish]

theorem foldl_blank {bs : List Char} (hbs : ∀ c ∈ bs, IsBlank c) (ts : List Token) :
    bs.foldl next { tokens := ts } = { tokens := ts } := by
  induction bs with
  | nil => rfl
  | cons c bs ih =>
      obtain ⟨hc, hbs⟩ := List.forall_mem_cons.mp hbs
      rw [List.foldl_cons, Holds.between.next (Or.inl hc), start_blank hc, ih hbs]

theorem Holds.foldl_blank {s : Lexer} {ts : List Token} (h : s.Holds ts) {bs : List Char}
    (hbs : ∀ c ∈ bs, IsBlank c) : (bs.foldl Lexer.next s).Holds ts := by
  cases bs with
  | nil => exact h
  | cons c bs =>
      obtain ⟨hc, hbs⟩ := List.forall_mem_cons.mp hbs
      rw [List.foldl_cons, h.next (Or.inl hc), start_blank hc, Lexer.foldl_blank hbs]
      exact .between

theorem Holds.finish {s : Lexer} {ts : List Token} (h : s.Holds ts) :
    s.finish = (ts.reverse, true) := by
  cases h with
  | between => rfl
  | num hfinish => simp only [Lexer.finish, hfinish]

theorem foldl_num {ts : List Token} {cs : List Char} {n n' : PartialNumeral}
    (h : cs.foldlM PartialNumeral.next? n = some n') :
    cs.foldl next { tokens := ts, mode := .num n } = { tokens := ts, mode := .num n' } := by
  induction cs generalizing n with
  | nil =>
      cases h
      rfl
  | cons c cs ih =>
      obtain ⟨m, hm, h⟩ := Option.bind_eq_some_iff.mp h
      rw [List.foldl_cons, ← ih h]
      simp only [next, hm]

/-- A digit starts a number, with or without a sign before it. -/
theorem start_toChar (ts : List Token) (d : Digit) :
    start ts d.toChar = next { tokens := ts, mode := .num {} } d.toChar := by
  match d with
  | 0 | 1 | 2 | 3 | 4 | 5 | 6 | 7 | 8 | 9 => rfl

theorem holds_render (ts : List Token) (n : Numeral) :
    ((n.render true).toList.foldl next { tokens := ts }).Holds (.num n :: ts) := by
  obtain ⟨m, hm, hfinish⟩ := PartialNumeral.foldlM_unsigned n
  rw [PartialNumeral.toList_render]
  cases hneg : n.negative with
  | true =>
      rw [hneg] at hm
      rw [if_pos rfl, List.foldl_append]
      exact foldl_num hm ▸ .num hfinish
  | false =>
      obtain ⟨d, cs, hcs⟩ := PartialNumeral.toDigits_eq_cons n.whole
      rw [hneg, hcs] at hm
      have hfirst : next { tokens := ts } d.toChar =
          next { tokens := ts, mode := .num {} } d.toChar := start_toChar ts d
      rw [if_neg Bool.false_ne_true, List.nil_append, hcs, List.cons_append, List.cons_append,
        List.foldl_cons, hfirst]
      exact foldl_num hm ▸ .num hfinish

/-! ## Strings -/

theorem hexDigit?_digitChar {k : Nat} (h : k < 16) : hexDigit? (Nat.digitChar k) = some k := by
  revert k
  decide

theorem pushUnit_toNat {c : Char} (h : c.toNat < 0x20) (s : PartialString) :
    s.pushUnit c.toNat = s.push c := by
  rw [PartialString.pushUnit, if_neg (by omega), if_neg (by omega), Char.ofNat_toNat]

/-- A numeric escape of two digits is one character. -/
theorem foldl_control {c : Char} (h : c.toNat < 0x20) (ts : List Token) (cs : List Char) :
    ['\\', 'u', '0', '0', Nat.digitChar (c.toNat / 16), Nat.digitChar (c.toNat % 16)].foldl next
        { tokens := ts, mode := .str { chars := cs } } =
      { tokens := ts, mode := .str { chars := c :: cs } } := by
  have hread : ['\\', 'u', '0', '0'].foldl next { tokens := ts, mode := .str { chars := cs } } =
      { tokens := ts, mode := .str { part := .hex 1 0, chars := cs } } := rfl
  have hhigh : hexDigit? (Nat.digitChar (c.toNat / 16)) = some (c.toNat / 16) :=
    hexDigit?_digitChar (by omega)
  have hlow : hexDigit? (Nat.digitChar (c.toNat % 16)) = some (c.toNat % 16) :=
    hexDigit?_digitChar (by omega)
  have hunit : 16 * (c.toNat / 16) + c.toNat % 16 = c.toNat := Nat.div_add_mod _ _
  change [Nat.digitChar (c.toNat / 16), Nat.digitChar (c.toNat % 16)].foldl next
    (['\\', 'u', '0', '0'].foldl next { tokens := ts, mode := .str { chars := cs } }) = _
  rw [hread]
  simp only [List.foldl_cons, List.foldl_nil, next, reduceCtorEq, and_false, if_false,
    PartialString.next?, hhigh, hlow, Option.map_some, Nat.mul_zero, Nat.zero_add, hunit,
    pushUnit_toNat h]
  rfl

theorem foldl_escapeChar (c : Char) (ts : List Token) (cs : List Char) :
    (escapeChar c).foldl next { tokens := ts, mode := .str { chars := cs } } =
      { tokens := ts, mode := .str { chars := c :: cs } } := by
  rw [escapeChar]
  split_ifs with h1 h2 h3 h4 h5 h6 h7 h8
  · subst h1; rfl
  · subst h2; rfl
  · subst h3; rfl
  · subst h4; rfl
  · subst h5; rfl
  · subst h6; rfl
  · subst h7; rfl
  · exact foldl_control h8 ts cs
  · rw [List.foldl_cons, List.foldl_nil, next]
    simp only [h1, false_and, if_false, PartialString.next?, h2, h8, PartialString.push]
    rfl

theorem foldl_flatMap_escapeChar (cs done : List Char) (ts : List Token) :
    (cs.flatMap escapeChar).foldl next { tokens := ts, mode := .str { chars := done } } =
      { tokens := ts, mode := .str { chars := cs.reverse ++ done } } := by
  induction cs generalizing done with
  | nil => rfl
  | cons c cs ih =>
      rw [List.flatMap_cons, List.foldl_append, foldl_escapeChar, ih, List.reverse_cons,
        List.append_assoc, List.singleton_append]

theorem foldl_quoteLiteral (s : Literal) (ts : List Token) :
    (quoteLiteral s).foldl next { tokens := ts } = { tokens := .str s :: ts } := by
  cases s with
  | none => exact rfl
  | some s =>
      have hopen : next { tokens := ts } '"' = { tokens := ts, mode := .str {} } := rfl
      have hclose (cs : List Char) : next { tokens := ts, mode := .str { chars := cs } } '"' =
          { tokens := .str (some (String.ofList cs.reverse)) :: ts } := rfl
      change (quote s).foldl next { tokens := ts } = _
      rw [quote, List.cons_append, List.foldl_cons, hopen, List.foldl_append,
        foldl_flatMap_escapeChar, List.append_nil, List.foldl_cons, hclose, List.reverse_reverse,
        String.ofList_toList, List.foldl_nil]

end Lexer

/-! ## Trees -/

/-- The layout puts nothing but blanks between the tokens. -/
structure Layout.Blank (l : Layout) : Prop where
  lineBreak : ∀ depth, ∀ c ∈ l.lineBreak depth, Lexer.IsBlank c
  colon : ∃ bs, l.colon = ':' :: bs ∧ ∀ c ∈ bs, Lexer.IsBlank c

theorem Layout.blank_compact : compact.Blank where
  lineBreak _ _ h := nomatch h
  colon := ⟨[], rfl, fun _ h => nomatch h⟩

theorem Layout.blank_pretty : pretty.Blank where
  lineBreak depth c h := by
    rcases List.mem_cons.mp h with rfl | h
    · exact Or.inr (Or.inr (Or.inr rfl))
    · exact Or.inl (List.eq_of_mem_replicate h)
  colon := ⟨[' '], rfl, fun _ h => Or.inl (List.mem_singleton.mp h)⟩

namespace Lexer

variable {l : Layout}

theorem foldl_key (hl : l.Blank) (key : Literal) (ts : List Token) :
    (quoteLiteral key ++ l.colon).foldl next { tokens := ts } =
      { tokens := .colon :: .str key :: ts } := by
  obtain ⟨bs, hcolon, hbs⟩ := hl.colon
  have hnext : next { tokens := .str key :: ts } ':' = { tokens := .colon :: .str key :: ts } := rfl
  rw [List.foldl_append, foldl_quoteLiteral, hcolon, List.foldl_cons, hnext, foldl_blank hbs]

/-- A closing bracket is a token of its own, also after a number. -/
theorem Holds.foldl_closeArr (hl : l.Blank) (depth : Nat) {s : Lexer} {ts : List Token}
    (h : s.Holds ts) :
    [']'].foldl Lexer.next ((l.lineBreak depth).foldl Lexer.next s) =
      { tokens := .closeArr :: ts } := by
  rw [List.foldl_cons, List.foldl_nil,
    (h.foldl_blank (hl.lineBreak depth)).next (Or.inr (Or.inr (Or.inl rfl)))]
  rfl

theorem Holds.foldl_closeObj (hl : l.Blank) (depth : Nat) {s : Lexer} {ts : List Token}
    (h : s.Holds ts) :
    ['\x7d'].foldl Lexer.next ((l.lineBreak depth).foldl Lexer.next s) =
      { tokens := .closeObj :: ts } := by
  rw [List.foldl_cons, List.foldl_nil,
    (h.foldl_blank (hl.lineBreak depth)).next (Or.inr (Or.inr (Or.inr rfl)))]
  rfl

theorem Holds.foldl_comma (hl : l.Blank) (depth : Nat) {s : Lexer} {ts : List Token}
    (h : s.Holds ts) :
    (',' :: l.lineBreak depth).foldl Lexer.next s = { tokens := .comma :: ts } := by
  rw [List.foldl_cons, h.next (Or.inr (Or.inl rfl))]
  exact Lexer.foldl_blank (hl.lineBreak depth) (.comma :: ts)

mutual

theorem holds_chars (hl : l.Blank) (depth : Nat) (ts : List Token) (j : Json) :
    ((j.chars l depth).foldl next { tokens := ts }).Holds (j.tokens.reverse ++ ts) := by
  match j with
  | .null => exact .between
  | .bool true => exact .between
  | .bool false => exact .between
  | .num n =>
      rw [chars]
      exact holds_render ts n
  | .str s =>
      rw [chars, foldl_quoteLiteral]
      exact .between
  | .arr [] => exact .between
  | .arr (item :: items) =>
      have hopen : ('[' :: l.lineBreak (depth + 1)).foldl next { tokens := ts } =
          { tokens := .openArr :: ts } := foldl_blank (hl.lineBreak _) (.openArr :: ts)
      have hitems := holds_itemChars hl (depth + 1) items
        (holds_chars hl (depth + 1) (.openArr :: ts) item)
      rw [chars, List.foldl_append, List.foldl_append, List.foldl_append, List.foldl_append, hopen,
        hitems.foldl_closeArr hl depth]
      simpa [Json.tokens] using Holds.between
  | .obj [] => exact .between
  | .obj ((key, value) :: members) =>
      have hopen : ('\x7b' :: l.lineBreak (depth + 1)).foldl next { tokens := ts } =
          { tokens := .openObj :: ts } := foldl_blank (hl.lineBreak _) (.openObj :: ts)
      have hmembers := holds_memberChars hl (depth + 1) members
        (holds_chars hl (depth + 1) (.colon :: .str key :: .openObj :: ts) value)
      rw [chars, List.append_assoc (_ :: _), List.foldl_append, List.foldl_append,
        List.foldl_append, List.foldl_append, List.foldl_append, hopen, foldl_key hl,
        hmembers.foldl_closeObj hl depth]
      simpa [Json.tokens] using Holds.between

theorem holds_itemChars (hl : l.Blank) (depth : Nat) (items : List Json) {s : Lexer}
    {ts : List Token} (h : s.Holds ts) :
    ((itemChars l depth items).foldl next s).Holds ((itemTokens items).reverse ++ ts) := by
  match items with
  | [] => exact h
  | item :: items =>
      have hitems := holds_itemChars hl depth items (holds_chars hl depth (.comma :: ts) item)
      rw [itemChars, List.foldl_append, List.foldl_append, h.foldl_comma hl]
      simpa [itemTokens] using hitems

theorem holds_memberChars (hl : l.Blank) (depth : Nat) (members : List (Literal × Json)) {s : Lexer}
    {ts : List Token} (h : s.Holds ts) :
    ((memberChars l depth members).foldl next s).Holds ((memberTokens members).reverse ++ ts) := by
  match members with
  | [] => exact h
  | (key, value) :: members =>
      have hmembers := holds_memberChars hl depth members
        (holds_chars hl depth (.colon :: .str key :: .comma :: ts) value)
      rw [memberChars, List.append_assoc (_ :: _), List.foldl_append, List.foldl_append,
        List.foldl_append, h.foldl_comma hl, foldl_key hl]
      simpa [memberTokens] using hmembers

end

end Lexer

/-- The tokens of a tree are read back from its text, in whatever layout it was
written. -/
theorem lex_chars {l : Layout} (hl : l.Blank) (depth : Nat) (j : Json) :
    lex (j.chars l depth) = (j.tokens, true) := by
  have h := (Lexer.holds_chars hl depth [] j).finish
  rwa [List.append_nil, List.reverse_reverse] at h

end Json

end ClosedWorld

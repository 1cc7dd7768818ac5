import ClosedWorld.Json.Basic

/-!
# Reading characters into tokens

A text is read one character at a time, by a machine that holds the tokens read
so far and whatever it is in the middle of. Reading is then a fold, which is
what makes it easy to reason about: reading `a ++ b` is reading `b` from where
reading `a` ended.

The machine accepts the tokens of strict JSON and nothing more: four blank
characters, no leading zeros, digits on both sides of a point, no bare control
characters in a string. Where it meets anything else it gets stuck and keeps the
tokens it had.
-/

namespace ClosedWorld.Json

/-- A piece of a text that means something as a whole. -/
inductive Token where
  | openArr
  | closeArr
  | openObj
  | closeObj
  | comma
  | colon
  | null
  | bool (value : Bool)
  | num (value : Numeral)
  | str (value : Literal)
  deriving DecidableEq, Inhabited

/-! ## Numbers -/

/-- The part of a number that was read last. -/
inductive NumeralPart where
  /-- The sign, or nothing yet. -/
  | sign
  /-- A zero, which must be the whole part. -/
  | zero
  | whole
  | point
  | frac
  /-- The letter of the exponent. -/
  | mark
  | markSign
  | exponent
  deriving DecidableEq, Inhabited

/-- A number in the middle of being read. -/
structure PartialNumeral where
  part : NumeralPart := .sign
  negative : Bool := false
  whole : Nat := 0
  /-- The digits after the point, the last one first. -/
  frac : List Digit := []
  exponentNegative : Bool := false
  exponent : Nat := 0
  deriving DecidableEq, Inhabited

namespace PartialNumeral

/-- Reads on with a digit. -/
def digit? (n : PartialNumeral) (d : Digit) : Option PartialNumeral :=
  match n.part with
  | .sign => some { n with part := if d.val = 0 then .zero else .whole, whole := d.val }
  | .zero => none
  | .whole => some { n with whole := 10 * n.whole + d.val }
  | .point | .frac => some { n with part := .frac, frac := d :: n.frac }
  | .mark | .markSign | .exponent =>
      some { n with part := .exponent, exponent := 10 * n.exponent + d.val }

/-- Reads on with a character that is part of the number. -/
def next? (n : PartialNumeral) (c : Char) : Option PartialNumeral :=
  match Digit.ofChar? c with
  | some d => n.digit? d
  | none =>
      match c, n.part with
      | '.', .zero | '.', .whole => some { n with part := .point }
      | 'e', .zero | 'e', .whole | 'e', .frac
      | 'E', .zero | 'E', .whole | 'E', .frac => some { n with part := .mark }
      | '+', .mark => some { n with part := .markSign }
      | '-', .mark => some { n with part := .markSign, exponentNegative := true }
      | _, _ => none

/-- The number, if it can end here. -/
def finish? (n : PartialNumeral) : Option Numeral :=
  let numeral : Numeral := { negative := n.negative, whole := n.whole, frac := n.frac.reverse }
  match n.part with
  | .zero | .whole | .frac => some numeral
  | .exponent =>
      let exponent : Int := if n.exponentNegative then -n.exponent else n.exponent
      some { numeral with exponent := some exponent }
  | .sign | .point | .mark | .markSign => none

end PartialNumeral

/-! ## Strings -/

/-- What the next character of a string continues. -/
inductive StringPart where
  | plain
  /-- An escape, after its backslash. -/
  | escape
  /-- A numeric escape that still wants `left + 1` digits. -/
  | hex (left : Nat) (unit : Nat)
  deriving DecidableEq, Inhabited

/-- A string in the middle of being read. -/
structure PartialString where
  part : StringPart := .plain
  /-- The characters so far, the last one first. -/
  chars : List Char := []
  /-- The first half of a surrogate pair, if it came last. -/
  high : Option Nat := none
  /-- No half of a pair has been left alone. -/
  intact : Bool := true
  deriving DecidableEq, Inhabited

/-- The value of a hexadecimal digit. -/
def hexDigit? (c : Char) : Option Nat :=
  if '0' ≤ c ∧ c ≤ '9' then some (c.toNat - '0'.toNat)
  else if 'a' ≤ c ∧ c ≤ 'f' then some (c.toNat - 'a'.toNat + 10)
  else if 'A' ≤ c ∧ c ≤ 'F' then some (c.toNat - 'A'.toNat + 10)
  else none

/-- The character that a one-letter escape stands for. -/
def escaped? : Char → Option Char
  | '"' => some '"'
  | '\\' => some '\\'
  | '/' => some '/'
  | 'b' => some '\x08'
  | 'f' => some '\x0c'
  | 'n' => some '\n'
  | 'r' => some '\r'
  | 't' => some '\t'
  | _ => none

namespace PartialString

/-- Adds a character. -/
def push (s : PartialString) (c : Char) : PartialString :=
  { part := .plain, chars := c :: s.chars, intact := s.intact && s.high.isNone }

/-- Adds a UTF-16 unit, which may be half of a character. -/
def pushUnit (s : PartialString) (unit : Nat) : PartialString :=
  if 0xd800 ≤ unit ∧ unit < 0xdc00 then
    { s with part := .plain, high := some unit, intact := s.intact && s.high.isNone }
  else if 0xdc00 ≤ unit ∧ unit < 0xe000 then
    match s.high with
    | some high =>
        { s with
          part := .plain
          chars := Char.ofNat (0x10000 + (high - 0xd800) * 0x400 + (unit - 0xdc00)) :: s.chars
          high := none }
    | none => { s with part := .plain, intact := false }
  else s.push (Char.ofNat unit)

/-- Reads on with a character other than the closing quote. -/
def next? (s : PartialString) (c : Char) : Option PartialString :=
  match s.part with
  | .plain =>
      if c = '\\' then some { s with part := .escape }
      else if c.toNat < 0x20 then none
      else some (s.push c)
  | .escape =>
      if c = 'u' then some { s with part := .hex 3 0 } else (escaped? c).map s.push
  | .hex left unit =>
      (hexDigit? c).map fun d =>
        match left with
        | 0 => s.pushUnit (16 * unit + d)
        | left + 1 => { s with part := .hex left (16 * unit + d) }

/-- The string, at its closing quote. -/
def literal (s : PartialString) : Literal :=
  if s.intact && s.high.isNone then some (String.ofList s.chars.reverse) else none

end PartialString

/-! ## The machine -/

/-- What the machine is in the middle of. -/
inductive Mode where
  /-- Nothing: between two tokens. -/
  | between
  /-- A word of which `first :: rest` is still to come. -/
  | word (first : Char) (rest : List Char) (token : Token)
  | num (n : PartialNumeral)
  | str (s : PartialString)
  /-- The text is not JSON. -/
  | stuck
  deriving DecidableEq, Inhabited

/-- The machine, with the tokens it has read, the last one first. -/
structure Lexer where
  tokens : List Token := []
  mode : Mode := .between
  deriving DecidableEq, Inhabited

namespace Lexer

/-- A whole token has been read. -/
def emit (tokens : List Token) (token : Token) : Lexer := { tokens := token :: tokens }

/-- Starts a token with its first character, or passes over a blank. -/
def start (tokens : List Token) : Char → Lexer
  | ' ' | '\t' | '\r' | '\n' => { tokens }
  | '[' => emit tokens .openArr
  | ']' => emit tokens .closeArr
  | '\x7b' => emit tokens .openObj
  | '\x7d' => emit tokens .closeObj
  | ',' => emit tokens .comma
  | ':' => emit tokens .colon
  | '"' => { tokens, mode := .str {} }
  | 'n' => { tokens, mode := .word 'u' ['l', 'l'] .null }
  | 't' => { tokens, mode := .word 'r' ['u', 'e'] (.bool true) }
  | 'f' => { tokens, mode := .word 'a' ['l', 's', 'e'] (.bool false) }
  | '-' => { tokens, mode := .num { negative := true } }
  | c =>
      match ({} : PartialNumeral).next? c with
      | some n => { tokens, mode := .num n }
      | none => { tokens, mode := .stuck }

/-- Reads one character. A number ends where it cannot go on, and the character
that ended it starts the next token. -/
def next (l : Lexer) (c : Char) : Lexer :=
  match l.mode with
  | .between => start l.tokens c
  | .word first rest token =>
      if c = first then
        match rest with
        | [] => emit l.tokens token
        | second :: rest => { l with mode := .word second rest token }
      else { l with mode := .stuck }
  | .num n =>
      match n.next? c with
      | some n => { l with mode := .num n }
      | none =>
          match n.finish? with
          | some numeral => start (.num numeral :: l.tokens) c
          | none => { l with mode := .stuck }
  | .str s =>
      if c = '"' ∧ s.part = .plain then emit l.tokens (.str s.literal)
      else
        match s.next? c with
        | some s => { l with mode := .str s }
        | none => { l with mode := .stuck }
  | .stuck => l

/-- The tokens in order, and whether the text could end here. -/
def finish (l : Lexer) : List Token × Bool :=
  match l.mode with
  | .between => (l.tokens.reverse, true)
  | .num n =>
      match n.finish? with
      | some numeral => ((.num numeral :: l.tokens).reverse, true)
      | none => (l.tokens.reverse, false)
  | .word .. | .str _ | .stuck => (l.tokens.reverse, false)

end Lexer

/-- The tokens of a text, up to the first fault; the flag says that there is
none. -/
def lex (text : List Char) : List Token × Bool := (text.foldl Lexer.next {}).finish

end ClosedWorld.Json

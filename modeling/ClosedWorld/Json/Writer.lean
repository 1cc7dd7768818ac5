import ClosedWorld.Json.Basic

/-!
# Writing a tree

The same tree is written on one line or spread over many. The two differ only in
what stands between the tokens, so there is one function for both and a `Layout`
that says what a line break at a depth is and what follows a colon. An empty
container takes no line break.
-/

namespace ClosedWorld.Json

/-- What stands between the tokens. -/
structure Layout where
  /-- Before every item and every closing bracket, at the depth of its line. -/
  lineBreak : Nat → List Char
  /-- After a key. -/
  colon : List Char

namespace Layout

/-- Everything on one line, without a blank. -/
def compact : Layout where
  lineBreak _ := []
  colon := [':']

/-- One item to a line, two blanks to a level. -/
def pretty : Layout where
  lineBreak depth := '\n' :: List.replicate (2 * depth) ' '
  colon := [':', ' ']

end Layout

/-- A character inside a string: quotes, backslashes and controls are escaped. -/
def escapeChar (c : Char) : List Char :=
  if c = '"' then ['\\', '"']
  else if c = '\\' then ['\\', '\\']
  else if c = '\x08' then ['\\', 'b']
  else if c = '\x0c' then ['\\', 'f']
  else if c = '\n' then ['\\', 'n']
  else if c = '\r' then ['\\', 'r']
  else if c = '\t' then ['\\', 't']
  else if c.toNat < 0x20 then
    ['\\', 'u', '0', '0', Nat.digitChar (c.toNat / 16), Nat.digitChar (c.toNat % 16)]
  else [c]

/-- A text between quotes. -/
def quote (s : String) : List Char := '"' :: s.toList.flatMap escapeChar ++ ['"']

/-- A string literal. One that spells no text is written as half of a pair. -/
def quoteLiteral : Literal → List Char
  | some s => quote s
  | none => "\"\\ud800\"".toList

mutual

/-- The text of a tree that stands at a depth. -/
def chars (l : Layout) (depth : Nat) : Json → List Char
  | .null => "null".toList
  | .bool true => "true".toList
  | .bool false => "false".toList
  | .num value => (value.render true).toList
  | .str value => quoteLiteral value
  | .arr [] => ['[', ']']
  | .arr (item :: items) =>
      '[' :: l.lineBreak (depth + 1) ++ chars l (depth + 1) item
        ++ itemChars l (depth + 1) items ++ l.lineBreak depth ++ [']']
  | .obj [] => ['\x7b', '\x7d']
  | .obj ((key, value) :: members) =>
      '\x7b' :: l.lineBreak (depth + 1) ++ quoteLiteral key ++ l.colon ++ chars l (depth + 1) value
        ++ memberChars l (depth + 1) members ++ l.lineBreak depth ++ ['\x7d']

/-- The items after the first, each after a comma. -/
def itemChars (l : Layout) (depth : Nat) : List Json → List Char
  | [] => []
  | item :: items => ',' :: l.lineBreak depth ++ chars l depth item ++ itemChars l depth items

/-- The members after the first, each after a comma. -/
def memberChars (l : Layout) (depth : Nat) : List (Literal × Json) → List Char
  | [] => []
  | (key, value) :: members =>
      ',' :: l.lineBreak depth ++ quoteLiteral key ++ l.colon ++ chars l depth value
        ++ memberChars l depth members

end

/-- The text of a tree on one line. -/
def compact (j : Json) : String := String.ofList (j.chars .compact 0)

/-- The text of a tree over several lines. -/
def pretty (j : Json) : String := String.ofList (j.chars .pretty 0)

end ClosedWorld.Json

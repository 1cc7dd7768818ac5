import ClosedWorld.Text.Unseen

/-!
# Quoted text in a listing

The listing shows inline assembly between double quotes. Inside them the quote
and the backslash are written with a backslash, four controls by their letter,
any other unseen character by its number in braces, and the rest as it is. An
apostrophe needs no escape.
-/

namespace ClosedWorld.Quoted

/-- The number of a character, in lower-case hexadecimal without padding. -/
def codePoint (c : Char) : String :=
  "\\u\x7b" ++ String.ofList (Nat.toDigits 16 c.toNat) ++ "\x7d"

/-- One character of a quoted text. -/
def escape (c : Char) : String :=
  if c = '"' then "\\\""
  else if c = '\\' then "\\\\"
  else if c = '\n' then "\\n"
  else if c = '\r' then "\\r"
  else if c = '\t' then "\\t"
  else if c = '\x00' then "\\0"
  else if isUnseen c then codePoint c
  else String.singleton c

/-- A text between double quotes. -/
def quote (s : String) : String := "\"" ++ String.join (s.toList.map escape) ++ "\""

end ClosedWorld.Quoted

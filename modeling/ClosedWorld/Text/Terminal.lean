import ClosedWorld.Text.Quoted

/-!
# Text that is safe on a terminal

A log is read on a terminal, and a terminal obeys some control characters: they
move its cursor, ring its bell or begin a command. Names come from the program
and may hold any character, so the log writes these ones by their number. The
other controls, line breaks among them, are left as they are.
-/

namespace ClosedWorld.Terminal

/-- One character of a safe text. Below U+0080 five characters are obeyed; from
there up to U+009F each one is. -/
def escape (c : Char) : String :=
  if c = '\x07' then "\\x07"
  else if c = '\x08' then "\\x08"
  else if c = '\x0c' then "\\x0c"
  else if c = '\x1b' then "\\x1b"
  else if c = '\x7f' then "\\x7f"
  else if 0x80 ≤ c.toNat && c.toNat ≤ 0x9f then Quoted.codePoint c
  else String.singleton c

/-- A text with nothing in it that a terminal obeys. -/
def safe (s : String) : String := String.join (s.toList.map escape)

end ClosedWorld.Terminal

/-!
# Texts in pieces

`cut` takes a text apart at a separator, and there is one piece more than there
are separators. `lines` takes it apart as a reader of a log does: a line feed
ends a line, alone or after a carriage return, and nothing follows the last one.
-/

namespace ClosedWorld.Text

/-- The pieces of a text with one more character in front. It belongs to the
first piece, unless it is the separator, which opens a new one. -/
def attach (separator c : Char) (pieces : List (List Char)) : List (List Char) :=
  if c = separator then [] :: pieces
  else
    match pieces with
    | [] => [[c]]
    | piece :: pieces => (c :: piece) :: pieces

/-- The pieces of a text between the separators, empty ones included. -/
def cut (separator : Char) (cs : List Char) : List (List Char) :=
  cs.foldr (attach separator) [[]]

/-- A line without the carriage return before its line feed. -/
def withoutReturn (line : List Char) : List Char :=
  if line.getLast? = some '\r' then line.dropLast else line

/-- The lines of a text. What follows the last line feed is one only if there is
something. -/
def lines (s : String) : List String :=
  let pieces := cut '\n' s.toList
  let ended := pieces.dropLast.map withoutReturn
  let last := pieces.getLast?.filter (· ≠ [])
  (ended ++ last.toList).map String.ofList

end ClosedWorld.Text

import ClosedWorld.Json.Reader

/-!
# Decoding within a depth

A decoder may enter a limited number of nested arrays and objects. It is given
the number of levels it may still enter, and it goes down one whenever it opens
a container. What it does not look at costs nothing: a member that no decoder
reads may nest as deep as it likes.

The functions here open one container each. They are what the decoders of the
types without recursion are written with, and they count levels in one place.
-/

namespace ClosedWorld

/-- The number of nested containers that a decoder enters at most. -/
def maxDepth : Nat := 127

namespace Json

variable {α : Type}

/-- An array, each of whose items is decoded. -/
def listAt? (decode : Nat → Json → Option α) : Nat → Json → Option (List α)
  | depth + 1, .arr items => items.mapM (decode depth)
  | _, _ => none

/-- The fields of a record, with the depth that is left for them. -/
def fieldsAt? (names : List String) : Nat → Json → Option (Nat × List (Option Json))
  | depth + 1, j => (j.fields? names).map (depth, ·)
  | 0, _ => none

/-- A tag with its value, and the depth that is left for the value. -/
def taggedAt? : Nat → Json → Option (String × Nat × Json)
  | depth + 1, .obj [(some tag, value)] => some (tag, depth, value)
  | _, _ => none

/-- One of a set of names, as a string or as a tag of null. -/
def nameAt? : Nat → Json → Option String
  | _, .str name => name
  | _ + 1, .obj [(some tag, .null)] => some tag
  | _, _ => none

/-- A text, which no container holds. -/
def textAt? (_ : Nat) (j : Json) : Option String := j.text?

/-- Reads a text that is JSON throughout and decodes it. -/
def decodeText? (decode : Nat → Json → Option α) (text : String) : Option α :=
  (read? text).bind (decode maxDepth)

end Json

end ClosedWorld

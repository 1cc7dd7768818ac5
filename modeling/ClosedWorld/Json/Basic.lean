import ClosedWorld.Numeral.Reading

/-!
# Data trees

Programs and configurations are exchanged as JSON. A tree keeps everything that
a decoder may ask about the text: numbers as they are spelled, members in order,
repeated keys, and string literals that spell no text at all, because an escape
in them names half of a surrogate pair. Such a literal is harmless in a place
that nobody reads, so it is a tree like any other.
-/

namespace ClosedWorld

/-- The text of a string literal; none when the literal spells no text. -/
abbrev Literal := Option String

/-- A JSON value. -/
inductive Json where
  | null
  | bool (value : Bool)
  | num (value : Numeral)
  | str (value : Literal)
  | arr (items : List Json)
  | obj (members : List (Literal × Json))
  deriving Inhabited

namespace Json

/-! ## Building -/

/-- A string that spells a text. -/
def text (s : String) : Json := .str (some s)

/-- A number without a point. -/
def int (i : Int) : Json := .num (.ofInt i)

/-- An object with the given members. -/
def record (members : List (String × Json)) : Json := .obj (members.map fun (k, v) => (some k, v))

/-- A value under the tag that says what it is. -/
def tagged (tag : String) (value : Json) : Json := .record [(tag, value)]

/-- An optional value. -/
def option {α : Type} (encode : α → Json) : Option α → Json
  | none => .null
  | some a => encode a

/-- A list of values of one type. -/
def list {α : Type} (encode : α → Json) (as : List α) : Json := .arr (as.map encode)

/-! ## Taking apart -/

/-- The text that a string spells. -/
def text? : Json → Option String
  | .str value => value
  | _ => none

/-- A truth value. -/
def bool? : Json → Option Bool
  | .bool value => some value
  | _ => none

/-- The integer that a number spells, if it lies in the given range. -/
def int? (least greatest : Int) : Json → Option Int
  | .num n => n.toInt?.filter fun i => least ≤ i ∧ i ≤ greatest
  | _ => none

/-- An integer that fits 32 bits without a sign. -/
def uint32? (j : Json) : Option UInt32 := (j.int? 0 (UInt32.size - 1)).map fun i => i.toNat.toUInt32

/-- An integer that fits 64 bits without a sign. -/
def uint64? (j : Json) : Option UInt64 := (j.int? 0 (UInt64.size - 1)).map fun i => i.toNat.toUInt64

/-- An integer that fits 64 bits with a sign. -/
def int64? (j : Json) : Option Int64 :=
  (j.int? Int64.minValue.toInt Int64.maxValue.toInt).map Int64.ofInt

/-- The double that a number is read as. -/
def double? : Json → Option Double
  | .num n => n.toDouble?
  | _ => none

/-- An optional value: null, or what the decoder accepts. -/
def option? {α : Type} (decode : Json → Option α) : Json → Option (Option α)
  | .null => some none
  | j => (decode j).map some

/-! ## Records

A record is written as an object, or as an array of its fields in order, from
which the last ones may be missing. In an object the order is free, members
under other keys are passed over, and a field may not be given twice. -/

/-- The value of a field, which a list of members gives at most once. -/
def field? (members : List (String × Json)) (name : String) : Option (Option Json) :=
  match members.filter (·.1 == name) with
  | [] => some none
  | [(_, value)] => some (some value)
  | _ => none

/-- The members of a record, under the names of its fields. -/
def members? (names : List String) : Json → Option (List (String × Json))
  | .arr items => if items.length ≤ names.length then some (names.zip items) else none
  | .obj members => members.mapM fun (k, v) => k.map (·, v)
  | _ => none

/-- The fields of a record, in the order of the given names. -/
def fields? (names : List String) (j : Json) : Option (List (Option Json)) := do
  let members ← j.members? names
  names.mapM (field? members)

/-- A field that may be left out. -/
def fieldOr {α : Type} (decode : Json → Option α) (default : α) : Option Json → Option α
  | none => some default
  | some j => decode j

end Json

end ClosedWorld

import ClosedWorld.Codec.Func
import ClosedWorld.Error
import ClosedWorld.Json.Writer

/-!
# Programs as data

A program is a record of its name and its two lists, and the text of a program
is spread over lines. Reading one back fails on a text of the wrong form, and on
a list that gives a name twice. Only the second failure names its cause, so it
matters which one comes first: the members are worked through in the order of
the text, also when the text has a fault later on, and the first failure wins.
-/

namespace ClosedWorld

namespace Global

/-- The data of a global. -/
def toJson (g : Global) : Json :=
  .record [("name", .text g.name), ("ty", g.ty.toJson), ("is_constant", .bool g.isConstant),
    ("linkage", g.linkage.toJson), ("initializer", .option Constant.toJson g.initial)]

/-- The global that some data describe, within a depth. -/
def ofJson? (depth : Nat) (j : Json) : Option Global := do
  match ← j.fieldsAt? ["name", "ty", "is_constant", "linkage", "initializer"] depth with
  | (depth, [some name, some ty, isConstant, linkage, initial]) =>
      return {
        name := ← name.text?
        ty := ← Ty.ofJson? depth ty
        isConstant := ← Json.fieldOr Json.bool? false isConstant
        linkage := ← Json.fieldOr (Linkage.ofJson? depth) .external linkage
        initial := ← Json.fieldOr (Json.option? (Constant.ofJson? depth)) none initial }
  | _ => none

end Global

/-- The first name of a list that stands in it before. -/
def repeatedName? (seen : List String) : List String → Option String
  | [] => none
  | name :: names =>
      if name ∈ seen then some name else repeatedName? (name :: seen) names

/-- A list whose members have different names. -/
def keyedList {α : Type} (decode : Nat → Json → Option α) (name : α → String)
    (duplicate : String → DecodeError) (depth : Nat) (j : Json) : Except DecodeError (List α) :=
  match j.listAt? decode depth with
  | none => .error .malformed
  | some as =>
      match repeatedName? [] (as.map name) with
      | some name => .error (duplicate name)
      | none => .ok as

namespace Program

/-- The data of a program. -/
def toJson (p : Program) : Json :=
  .record [("name", .text p.name), ("functions", .list Func.toJson p.functions),
    ("globals", .list Global.toJson p.globals)]

/-- The members of a program that have been read. -/
structure Partial where
  name : Option String := none
  functions : Option (List Func) := none
  globals : Option (List Global) := none
  deriving Inhabited

/-- Reads one member, which may not have been read before. The members stand one
level below the program. -/
def Partial.member (m : Partial) : Literal × Json → Except DecodeError Partial
  | (some "name", value) =>
      match m.name, value.text? with
      | none, some name => .ok { m with name }
      | _, _ => .error .malformed
  | (some "functions", value) =>
      if m.functions.isSome then .error .malformed
      else
        (keyedList Func.ofJson? Func.name .duplicateFunction (maxDepth - 1) value).map
          fun functions => { m with functions }
  | (some "globals", value) =>
      if m.globals.isSome then .error .malformed
      else
        (keyedList Global.ofJson? Global.name .duplicateGlobal (maxDepth - 1) value).map
          fun globals => { m with globals }
  | (some _, _) => .ok m
  | (none, _) => .error .malformed

/-- The program; what was not given is empty. -/
def Partial.complete (m : Partial) : Program :=
  { name := m.name.getD "", functions := m.functions.getD [], globals := m.globals.getD [] }

/-- The program that some data describe. -/
def ofJson (j : Json) : Except DecodeError Program :=
  match j with
  | .obj members => (members.foldlM Partial.member {}).map Partial.complete
  | .arr items => do
      let names : List Literal := [some "name", some "functions", some "globals"]
      let m ← (names.zip items).foldlM Partial.member {}
      if items.length ≤ names.length then .ok m.complete else .error .malformed
  | _ => .error .malformed

/-- The program that a text describes. -/
def decode (text : String) : Except DecodeError Program :=
  match Json.read text with
  | .whole value => ofJson value
  | .cut beginning => do
      let _ ← ofJson beginning
      .error .malformed

/-- The text of a program. -/
def encode (p : Program) : String := p.toJson.pretty

end Program

end ClosedWorld

import ClosedWorld.Codec.Depth
import ClosedWorld.Config

/-!
# Configurations as data

A configuration is a record in which every field may be left out; what is not
given stays as it is by default. `Config.load` reads a text and refuses a
configuration that no run can work with.
-/

namespace ClosedWorld

namespace Stage

/-- The data of a stage. -/
def toJson (s : Stage) : Json := .text s.name

/-- The stage that some data describe, within a depth. -/
def ofJson? (depth : Nat) (j : Json) : Option Stage := (j.nameAt? depth).bind ofName?

end Stage

namespace TablePolicy

/-- The name of a policy. -/
def name : TablePolicy → String
  | .keep => "keep"
  | .reject => "reject"

/-- The policy of a name. -/
def ofName? : String → Option TablePolicy
  | "keep" => some .keep
  | "reject" => some .reject
  | _ => none

/-- The data of a policy. -/
def toJson (t : TablePolicy) : Json := .text t.name

/-- The policy that some data describe, within a depth. -/
def ofJson? (depth : Nat) (j : Json) : Option TablePolicy := (j.nameAt? depth).bind ofName?

end TablePolicy

namespace Config

/-- The fields of a configuration, in order, each with its data. -/
def fields (c : Config) : List (String × Json) :=
  [("unsupported_calls", .list .text c.unsupported),
    ("oracle_prefix", .text c.oracleMark),
    ("leave_calls", .list .text c.trusted),
    ("strip_bodies", .list .text c.stripped),
    ("entry_function", .text c.entryFunction),
    ("entry_table", .text c.entryTable),
    ("entry_table_policy", c.tablePolicy.toJson),
    ("stages", .list Stage.toJson c.stages),
    ("verify_input", .bool c.verifyInput),
    ("verify_output", .bool c.verifyOutput)]

/-- The data of a configuration. -/
def toJson (c : Config) : Json := .record c.fields

/-- The names of the fields, in order. -/
def fieldNames : List String :=
  ["unsupported_calls", "oracle_prefix", "leave_calls", "strip_bodies", "entry_function",
    "entry_table", "entry_table_policy", "stages", "verify_input", "verify_output"]

/-- The configuration that some data describe, within a depth. -/
def ofJson? (depth : Nat) (j : Json) : Option Config := do
  let usual : Config := {}
  match ← j.fieldsAt? fieldNames depth with
  | (depth, [unsupported, oracleMark, trusted, stripped, entryFunction, entryTable, tablePolicy,
      stages, verifyInput, verifyOutput]) =>
      return {
        unsupported :=
          ← Json.fieldOr (Json.listAt? Json.textAt? depth) usual.unsupported unsupported
        oracleMark := ← Json.fieldOr Json.text? usual.oracleMark oracleMark
        trusted := ← Json.fieldOr (Json.listAt? Json.textAt? depth) usual.trusted trusted
        stripped := ← Json.fieldOr (Json.listAt? Json.textAt? depth) usual.stripped stripped
        entryFunction := ← Json.fieldOr Json.text? usual.entryFunction entryFunction
        entryTable := ← Json.fieldOr Json.text? usual.entryTable entryTable
        tablePolicy := ← Json.fieldOr (TablePolicy.ofJson? depth) usual.tablePolicy tablePolicy
        stages := ← Json.fieldOr (Json.listAt? Stage.ofJson? depth) usual.stages stages
        verifyInput := ← Json.fieldOr Json.bool? usual.verifyInput verifyInput
        verifyOutput := ← Json.fieldOr Json.bool? usual.verifyOutput verifyOutput }
  | _ => none

/-- The configuration that a text describes. -/
def decode (text : String) : Except ConfigError Config :=
  match Json.decodeText? ofJson? text with
  | some c => .ok c
  | none => .error .undecodable

/-- The configuration that a text describes, if a run can work with it. -/
def load (text : String) : Except ConfigError Config := do
  let c ← decode text
  c.check
  return c

end Config

end ClosedWorld

import ClosedWorld.Codec.Depth
import ClosedWorld.Ty

/-!
# Types as data

A scalar type without a parameter is a name; every other type is a tag with its
parameters under it.
-/

namespace ClosedWorld.Ty

mutual

/-- The data of a type. -/
def toJson : Ty → Json
  | .void => .text "void"
  | .int bits => .tagged "int" (.int bits.toNat)
  | .float => .text "float"
  | .double => .text "double"
  | .ptr pointee => .tagged "ptr" (toJson pointee)
  | .array elem len =>
      .tagged "array" (.record [("elem", toJson elem), ("len", .int len.toNat)])
  | .struct fields => .tagged "struct" (.arr (toJsonAll fields))
  | .func ret params variadic =>
      .tagged "function" (.record [("ret", toJson ret), ("params", .arr (toJsonAll params)),
        ("variadic", .bool variadic)])

/-- The data of a list of types. -/
def toJsonAll : List Ty → List Json
  | [] => []
  | t :: ts => toJson t :: toJsonAll ts

end

@[simp] theorem toJsonAll_eq_map (ts : List Ty) : toJsonAll ts = ts.map toJson := by
  induction ts with
  | nil => rfl
  | cons t ts ih => simp [toJsonAll, ih]

/-- The types that are written as names. -/
def ofName? : String → Option Ty
  | "void" => some .void
  | "float" => some .float
  | "double" => some .double
  | _ => none

/-- The type that some data describe, within a depth. -/
def ofJson? : Nat → Json → Option Ty
  | _, .str name => name.bind ofName?
  | _ + 1, .obj [(some tag, .null)] => ofName? tag
  | depth + 1, .obj [(some tag, value)] =>
      match tag, depth with
      | "int", _ => value.uint32?.map .int
      | "ptr", depth => (ofJson? depth value).map .ptr
      | "array", depth + 1 =>
          match value.fields? ["elem", "len"] with
          | some [some elem, some len] => return .array (← ofJson? depth elem) (← len.uint64?)
          | _ => none
      | "struct", depth + 1 =>
          match value with
          | .arr fields => (fields.mapM (ofJson? depth)).map .struct
          | _ => none
      | "function", depth + 2 =>
          match value.fields? ["ret", "params", "variadic"] with
          | some [some ret, some (.arr params), variadic] =>
              return .func (← ofJson? (depth + 1) ret) (← params.mapM (ofJson? depth))
                (← Json.fieldOr Json.bool? false variadic)
          | _ => none
      | _, _ => none
  | _, _ => none

end ClosedWorld.Ty

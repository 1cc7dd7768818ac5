/-!
# Types

A program is typed by a small closed language: scalars, pointers, arrays,
anonymous structs and function signatures. Two facts about a type matter to the
rest of the library. A type is *first class* when a value of it can exist, which
is every type but `void` and the function types; exactly those have a zero. And
a type has one printed form, `Ty.render`, which is what the listing and the
error messages show.

Types nest through lists, so equality is decided by hand: `Ty.same` walks two
types side by side, and `Ty.same_iff` is what makes it an equality test.
-/

namespace ClosedWorld

/-- The type of a value, of storage or of a function. -/
inductive Ty where
  /-- No value; only the result of a function can have it. -/
  | void
  /-- An integer of `bits` bits; `i1` is the truth values. -/
  | int (bits : UInt32)
  | float
  | double
  | ptr (pointee : Ty)
  | array (elem : Ty) (len : UInt64)
  | struct (fields : List Ty)
  /-- A signature; as an operand type it stands only behind a pointer. -/
  | func (ret : Ty) (params : List Ty) (variadic : Bool)
  deriving Inhabited

namespace Ty

/-- The pointer every kind of address can be cast to. -/
def bytePtr : Ty := .ptr (.int 8)

/-- The type of functions that return nothing. -/
def isVoid : Ty → Bool
  | .void => true
  | _ => false

/-- The type of an address. -/
def isPointer : Ty → Bool
  | .ptr _ => true
  | _ => false

/-- A value of this type can exist. -/
def isFirstClass : Ty → Bool
  | .void | .func .. => false
  | _ => true

/-! ## Equality -/

mutual

/-- Compares two types constructor by constructor. -/
def same : Ty → Ty → Bool
  | .void, .void => true
  | .int a, .int b => a == b
  | .float, .float => true
  | .double, .double => true
  | .ptr s, .ptr t => same s t
  | .array s m, .array t n => same s t && m == n
  | .struct ss, .struct ts => sameAll ss ts
  | .func r ps v, .func r' ps' v' => same r r' && sameAll ps ps' && v == v'
  | _, _ => false

/-- Compares two lists of types, lengths included. -/
def sameAll : List Ty → List Ty → Bool
  | [], [] => true
  | s :: ss, t :: ts => same s t && sameAll ss ts
  | _, _ => false

end

mutual

theorem same_iff (s t : Ty) : same s t = true ↔ s = t := by
  cases s <;> cases t <;>
    simp [same, same_iff, sameAll_iff, and_assoc]

theorem sameAll_iff (ss ts : List Ty) : sameAll ss ts = true ↔ ss = ts := by
  cases ss <;> cases ts <;> simp [sameAll, same_iff, sameAll_iff]

end

instance : DecidableEq Ty := fun s t => decidable_of_iff _ (same_iff s t)

/-! ## The printed form -/

/-- The parameter list of a signature, with `...` last when it is open. -/
def parameters (params : List String) (variadic : Bool) : String :=
  String.intercalate ", " (if variadic then params ++ ["..."] else params)

mutual

/-- The printed form of a type. -/
def render : Ty → String
  | .void => "void"
  | .int bits => "i" ++ toString bits.toNat
  | .float => "float"
  | .double => "double"
  | .ptr pointee => render pointee ++ "*"
  | .array elem len => "[" ++ toString len.toNat ++ " x " ++ render elem ++ "]"
  | .struct fields => "\x7b " ++ String.intercalate ", " (renderAll fields) ++ " \x7d"
  | .func ret params variadic =>
      render ret ++ " (" ++ parameters (renderAll params) variadic ++ ")"

/-- The printed forms of a list of types. -/
def renderAll : List Ty → List String
  | [] => []
  | t :: ts => render t :: renderAll ts

end

@[simp] theorem renderAll_eq_map (ts : List Ty) : renderAll ts = ts.map render := by
  induction ts with
  | nil => rfl
  | cons t ts ih => simp [renderAll, ih]

end Ty

end ClosedWorld

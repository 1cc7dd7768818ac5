import ClosedWorld.Ty

/-!
# Oracles

An oracle is a function that the verifier supplies: a generator returns an
unconstrained value of its type, and a control primitive steers the search. The
verifier knows each generator under one canonical name and some also under
aliases. This module is the catalogue; what a run keeps, strips or reports is
decided from the names in it.
-/

namespace ClosedWorld

/-- What a generator returns. -/
inductive Nondet where
  | signed (bits : UInt32)
  | unsigned (bits : UInt32)
  | float
  | double
  | bool
  | pointer
  deriving DecidableEq, Inhabited

namespace Nondet

/-- The type of the returned value; signs are not part of it. -/
def type : Nondet → Ty
  | .signed bits | .unsigned bits => .int bits
  | .float => .float
  | .double => .double
  | .bool => .int 1
  | .pointer => .bytePtr

/-- The name that reports give to a kind of value. -/
def render : Nondet → String
  | .signed bits => s!"Signed({bits.toNat})"
  | .unsigned bits => s!"Unsigned({bits.toNat})"
  | .float => "Float"
  | .double => "Double"
  | .bool => "Bool"
  | .pointer => "Pointer"

end Nondet

namespace Oracle

/-- What the names of the verifier's own primitives start with. -/
def primitiveMark : String := "__VERIFIER_"

/-- The generators under their canonical names. -/
def generators : List (String × Nondet) := [
  ("__VERIFIER_nondet_char", .signed 8),
  ("__VERIFIER_nondet_short", .signed 16),
  ("__VERIFIER_nondet_int", .signed 32),
  ("__VERIFIER_nondet_long", .signed 64),
  ("__VERIFIER_nondet_uchar", .unsigned 8),
  ("__VERIFIER_nondet_ushort", .unsigned 16),
  ("__VERIFIER_nondet_uint", .unsigned 32),
  ("__VERIFIER_nondet_ulong", .unsigned 64),
  ("__VERIFIER_nondet_float", .float),
  ("__VERIFIER_nondet_double", .double),
  ("__VERIFIER_nondet__Bool", .bool),
  ("__VERIFIER_nondet_pointer", .pointer)]

/-- Further names, each with the canonical name of the generator behind it. -/
def aliases : List (String × String) := [
  ("__VERIFIER_nondet_bool", "__VERIFIER_nondet__Bool"),
  ("__VERIFIER_nondet_pchar", "__VERIFIER_nondet_pointer"),
  ("__VERIFIER_nondet_unsigned", "__VERIFIER_nondet_uint"),
  ("__VERIFIER_nondet_u8", "__VERIFIER_nondet_uchar"),
  ("__VERIFIER_nondet_U8", "__VERIFIER_nondet_uchar"),
  ("__VERIFIER_nondet_u16", "__VERIFIER_nondet_ushort"),
  ("__VERIFIER_nondet_U16", "__VERIFIER_nondet_ushort"),
  ("__VERIFIER_nondet_u32", "__VERIFIER_nondet_uint"),
  ("__VERIFIER_nondet_U32", "__VERIFIER_nondet_uint"),
  ("__VERIFIER_nondet_size_t", "__VERIFIER_nondet_uint"),
  ("__VERIFIER_nondet_loff_t", "__VERIFIER_nondet_ulong"),
  ("__VERIFIER_nondet_pthread_t", "__VERIFIER_nondet_ulong"),
  ("__VERIFIER_nondet_sector_t", "__VERIFIER_nondet_ulong"),
  ("nondet_char", "__VERIFIER_nondet_char"),
  ("nondet_short", "__VERIFIER_nondet_short"),
  ("nondet_int", "__VERIFIER_nondet_int"),
  ("nondet_long", "__VERIFIER_nondet_long")]

/-- The primitive that constrains the path. -/
def assume : String := "__VERIFIER_assume"

/-- The primitives that return nothing: constraints, errors and atomic sections. -/
def controls : List String := [
  assume,
  "__VERIFIER_assert",
  "__VERIFIER_error",
  "__VERIFIER_atomic_begin",
  "__VERIFIER_atomic_end"]

/-- The canonical name of a generator or alias. -/
def canonical? (name : String) : Option String :=
  if (generators.lookup name).isSome then some name else aliases.lookup name

/-- What the generator or alias of a name returns. -/
def nondet? (name : String) : Option Nondet := (canonical? name).bind (generators.lookup ·)

/-- The verifier supplies a function of this name. -/
def isPrimitive (name : String) : Bool := (canonical? name).isSome || controls.contains name

/-- Oracles of older programs, from before the primitives had a common mark. -/
def legacy : List String := ["kzalloc", "nondet_int"]

/-- Aliases that programs often define for themselves. -/
def strippedAliases : List String := [
  "__VERIFIER_nondet_pchar",
  "__VERIFIER_nondet_unsigned",
  "__VERIFIER_nondet_u32",
  "__VERIFIER_nondet_bool"]

/-- The functions whose bodies are dropped unless a configuration says
otherwise. -/
def defaultStripped : List String :=
  legacy ++ [assume] ++ generators.map (·.1) ++ strippedAliases

/-- The functions besides the marked primitives that are trusted to exist when
the program is verified, unless a configuration says otherwise. -/
def defaultTrusted : List String := [
  "nondet_int",
  "klee_int",
  "__assert_fail",
  "exit",
  "sprintf",
  "snprintf",
  "swprintf",
  "malloc",
  "free",
  "memset",
  "memcmp",
  "memcpy",
  "memmove",
  "kzalloc"]

end Oracle

end ClosedWorld

import ClosedWorld.Codec.Program
import ClosedWorld.Proofs.Induction

/-!
# How deep a tree nests

The depth of a tree is the number of arrays and objects around its innermost
part. Decoders count down the containers that they enter, so what they ask of a
tree is a bound on its depth, and a bound on a container is a bound on its
parts, one less. That is the form of the lemmas here: there is one for every way
to build a container, and the depth itself is never computed.
-/

namespace ClosedWorld.Json

mutual

/-- The number of nested containers. -/
def depth : Json → Nat
  | .null | .bool _ | .num _ | .str _ => 0
  | .arr items => depthAll items + 1
  | .obj members => depthMembers members + 1

/-- The depth of the deepest item. -/
def depthAll : List Json → Nat
  | [] => 0
  | item :: items => max (depth item) (depthAll items)

/-- The depth of the deepest value. -/
def depthMembers : List (Literal × Json) → Nat
  | [] => 0
  | (_, value) :: members => max (depth value) (depthMembers members)

end

theorem depthAll_le {items : List Json} {d : Nat} :
    depthAll items ≤ d ↔ ∀ j ∈ items, j.depth ≤ d := by
  induction items with
  | nil => simp [depthAll]
  | cons item items ih => rw [depthAll, Nat.max_le, ih, List.forall_mem_cons]

theorem depthMembers_le {members : List (Literal × Json)} {d : Nat} :
    depthMembers members ≤ d ↔ ∀ m ∈ members, m.2.depth ≤ d := by
  induction members with
  | nil => simp [depthMembers]
  | cons m members ih => rw [depthMembers, Nat.max_le, ih, List.forall_mem_cons]

variable {d : Nat}

theorem depth_arr_le {items : List Json} :
    (arr items).depth ≤ d + 1 ↔ ∀ j ∈ items, j.depth ≤ d := by
  rw [depth, Nat.add_le_add_iff_right, depthAll_le]

theorem depth_obj_le {members : List (Literal × Json)} :
    (obj members).depth ≤ d + 1 ↔ ∀ m ∈ members, m.2.depth ≤ d := by
  rw [depth, Nat.add_le_add_iff_right, depthMembers_le]

theorem depth_list_le {α : Type} {encode : α → Json} {as : List α} :
    (list encode as).depth ≤ d + 1 ↔ ∀ a ∈ as, (encode a).depth ≤ d := by
  rw [list, depth_arr_le, List.forall_mem_map]

theorem depth_record_le {members : List (String × Json)} :
    (record members).depth ≤ d + 1 ↔ ∀ m ∈ members, m.2.depth ≤ d := by
  rw [record, depth_obj_le, List.forall_mem_map]

theorem depth_tagged_le {tag : String} {value : Json} :
    (tagged tag value).depth ≤ d + 1 ↔ value.depth ≤ d := by
  rw [tagged, depth_record_le, List.forall_mem_singleton]

theorem depth_option_le {α : Type} {encode : α → Json} {a : Option α} :
    (option encode a).depth ≤ d ↔ ∀ b, a = some b → (encode b).depth ≤ d := by
  cases a with
  | none => simp [option, depth]
  | some a => simp [option]

@[simp] theorem depth_text (s : String) : (text s).depth = 0 := rfl

@[simp] theorem depth_int (i : Int) : (int i).depth = 0 := rfl

@[simp] theorem depth_bool (b : Bool) : (bool b).depth = 0 := rfl

theorem depth_record_ne_zero {members : List (String × Json)} : (record members).depth ≠ 0 :=
  Nat.succ_ne_zero _

theorem depth_tagged_ne_zero {tag : String} {value : Json} : (tagged tag value).depth ≠ 0 :=
  Nat.succ_ne_zero _

end ClosedWorld.Json

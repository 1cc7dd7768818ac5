import ClosedWorld.Constant
import ClosedWorld.Json.Basic

/-!
# Induction on trees

Types, constants and data trees nest through lists, and the induction principles
that come with such types speak of the lists on their own. The principles here
have one case for every constructor, in which what is to be shown may be assumed
of each member of a list. They are what `induction` uses from here on.
-/

namespace ClosedWorld

@[elab_as_elim, induction_eliminator]
theorem Ty.induction {motive : Ty → Prop} (void : motive .void) (int : ∀ bits, motive (.int bits))
    (float : motive .float) (double : motive .double)
    (ptr : ∀ pointee, motive pointee → motive (.ptr pointee))
    (array : ∀ elem len, motive elem → motive (.array elem len))
    (struct : ∀ fields, (∀ t ∈ fields, motive t) → motive (.struct fields))
    (func : ∀ ret params variadic, motive ret → (∀ t ∈ params, motive t) →
      motive (.func ret params variadic))
    (t : Ty) : motive t := by
  refine Ty.rec (motive_2 := fun ts => ∀ t ∈ ts, motive t) void int float double ptr array struct
    (fun ret params variadic hret hparams => func ret params variadic hret hparams)
    (fun _ h => absurd h List.not_mem_nil) (fun t ts ht hts => ?_) t
  exact List.forall_mem_cons.mpr ⟨ht, hts⟩

@[elab_as_elim, induction_eliminator]
theorem Constant.induction {motive : Constant → Prop}
    (int : ∀ bits value, motive (.int bits value)) (float : ∀ ty value, motive (.float ty value))
    (null : ∀ ty, motive (.null ty)) (zeroInit : ∀ ty, motive (.zeroInit ty))
    (funcAddr : ∀ name, motive (.funcAddr name)) (globalAddr : ∀ name, motive (.globalAddr name))
    (bitcast : ∀ value ty, motive value → motive (.bitcast value ty))
    (array : ∀ elem elems, (∀ c ∈ elems, motive c) → motive (.array elem elems))
    (c : Constant) : motive c := by
  refine Constant.rec (motive_2 := fun cs => ∀ c ∈ cs, motive c) int float null zeroInit funcAddr
    globalAddr bitcast array (fun _ h => absurd h List.not_mem_nil) (fun c cs hc hcs => ?_) c
  exact List.forall_mem_cons.mpr ⟨hc, hcs⟩

@[elab_as_elim, induction_eliminator]
theorem Json.induction {motive : Json → Prop} (null : motive .null)
    (bool : ∀ value, motive (.bool value)) (num : ∀ value, motive (.num value))
    (str : ∀ value, motive (.str value))
    (arr : ∀ items, (∀ j ∈ items, motive j) → motive (.arr items))
    (obj : ∀ members, (∀ m ∈ members, motive m.2) → motive (.obj members))
    (j : Json) : motive j := by
  refine Json.rec (motive_2 := fun items => ∀ j ∈ items, motive j)
    (motive_3 := fun members => ∀ m ∈ members, motive m.2) (motive_4 := fun m => motive m.2)
    null bool num str arr obj (fun _ h => absurd h List.not_mem_nil) (fun j js hj hjs => ?_)
    (fun _ h => absurd h List.not_mem_nil) (fun m ms hm hms => ?_) (fun _ _ h => h) j
  · exact List.forall_mem_cons.mpr ⟨hj, hjs⟩
  · exact List.forall_mem_cons.mpr ⟨hm, hms⟩

end ClosedWorld

import ClosedWorld.CallSite
import ClosedWorld.Event

/-!
# Removing the calls to undefined functions

A call is *doomed* when its subject has no body and is not trusted to exist. The
second stage removes the doomed calls, and where one binds a result it puts the
zero of the result's type in place of every use. A zero rather than an undefined
value: all uses of one result must see the same.

The stage plans before it acts. Every call of every function is looked at while
the program is still whole, so a call that leads nowhere, or a result type
without a zero, ends the stage before anything has changed. A planned removal
names its call by position. The replacements change no position, and the
removals are carried out from the last to the first, so each of them finds its
call where the plan saw it.
-/

namespace ClosedWorld

/-- A function that calls cannot be left to: undefined and not trusted. -/
def TrustList.isUndefined (t : TrustList) (f : Func) : Bool :=
  !f.isIntrinsic && f.isDeclaration && !t.trusts f.name

/-- A call, with the position of its block and its own position in the block. -/
structure PlacedCall where
  block : Nat
  index : Nat
  call : Call
  deriving DecidableEq, Inhabited

/-- The calls of a block, the block being at a position. -/
def Block.placedCalls (b : Block) (block : Nat) : List PlacedCall :=
  b.instrs.zipIdx.filterMap fun (i, index) => i.call?.map fun call => { block, index, call }

/-- The calls of the body, with their positions. -/
def Func.placedCalls (f : Func) : List PlacedCall :=
  f.blocks.zipIdx.flatMap fun (b, block) => b.placedCalls block

/-- A planned removal. -/
structure Removal where
  /-- The position of the block. -/
  block : Nat
  /-- The position in the block. -/
  index : Nat
  callee : String
  /-- The register of the result and the zero that replaces it. -/
  replacement : Option (Reg × Constant)
  deriving DecidableEq, Inhabited

namespace Program

/-- The removal of a call, if it is doomed. -/
def removal? (p : Program) (t : TrustList) (caller : String) (s : PlacedCall) :
    Except Error (Option Removal) := do
  match ← p.target? caller s.call with
  | none => return none
  | some f =>
      if !t.isUndefined f then return none
      else
        let removal (replacement : Option (Reg × Constant)) : Removal :=
          { block := s.block, index := s.index, callee := f.name, replacement }
        match if s.call.ret.isVoid then none else s.call.result with
        | none => return some (removal none)
        | some r =>
            match Constant.zeroOf? s.call.ret with
            | some zero => return some (removal (some (r, zero)))
            | none => .error (.noZeroValue f.name s.call.ret)

/-- The removals of a function, in the order of its calls. -/
def removals (p : Program) (t : TrustList) (f : Func) : Except Error (List Removal) :=
  f.placedCalls.filterMapM (p.removal? t f.name)

/-- The removals of every function. -/
def removalPlan (p : Program) (t : TrustList) : Except Error (List (Func × List Removal)) :=
  p.functions.mapM fun f => return (f, ← p.removals t f)

end Program

/-- Removes the instruction at a position. -/
def Block.erase (b : Block) (index : Nat) : Block := { b with instrs := b.instrs.eraseIdx index }

namespace Func

/-- Carries out the replacements of a list of removals, one after another. -/
def applyReplacements (f : Func) : List Removal → Func × List Event
  | [] => (f, [])
  | removal :: rest =>
      let removed :=
        Event.diagnostic { kind := .removedCall, symbol := removal.callee, caller := some f.name }
      match removal.replacement with
      | none =>
          let (f', events) := f.applyReplacements rest
          (f', removed :: events)
      | some (r, zero) =>
          let (replaced, count) := f.replaceUses r (.const zero)
          let (f', events) := replaced.applyReplacements rest
          (f', removed :: .replacedUses count r f.name zero :: events)

/-- Removes the instructions at the planned positions, the last one first. -/
def erase (f : Func) (removals : List Removal) : Func :=
  { f with body := f.body.map fun blocks =>
      removals.foldr (fun removal bs => bs.modify removal.block (·.erase removal.index)) blocks }

end Func

namespace Program

/-- The stage that removes the calls to undefined functions. -/
def deleteUndefined (p : Program) (c : Config) : Outcome Bool :=
  match p.removalPlan c.trustList with
  | .error e => .check p (.error e)
  | .ok plan =>
      let applied := plan.map fun (f, removals) =>
        let (f', events) := f.applyReplacements removals
        (f'.erase removals, events)
      { program := { p with functions := applied.map (·.1) }
        events := applied.flatMap (·.2)
        result := .ok (plan.any fun (_, removals) => !removals.isEmpty) }

end Program

end ClosedWorld

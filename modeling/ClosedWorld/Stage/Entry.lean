import ClosedWorld.Event
import ClosedWorld.Program.Checked

/-!
# Preparing the entry

The last stage makes the program ready to be loaded. It drops the bodies of
oracles, so that calls to them mean "any value"; it gives every mutable global
without an initial value the zero of its type; and it publishes a table of entry
points under a reserved name.

`Program.entryPlan` checks beforehand everything that can go wrong, and it
decides what will become of the table. A program on which it succeeds goes
through all three steps, so a failure of this stage changes nothing.
-/

namespace ClosedWorld

/-- What will become of the entry table. -/
inductive EntryPlan where
  /-- A new one is added. -/
  | create
  /-- There is one, and it stays as it is. -/
  | keep
  deriving DecidableEq, Inhabited

/-- The name of a plan. -/
def EntryPlan.name : EntryPlan → String
  | .create => "create"
  | .keep => "keep"

/-- Mutable storage without an initial value. -/
def Global.needsZero (g : Global) : Bool := !g.isConstant && g.initial.isNone

/-- The table that lists one entry function. -/
def Config.entryTableGlobal (c : Config) : Global where
  name := c.entryTable
  ty := .array .bytePtr 1
  isConstant := true
  linkage := .internal
  initial := some (.array .bytePtr [.bitcast (.funcAddr c.entryFunction) .bytePtr])

namespace Program

/-- Checks everything the stage relies on, and decides about the table. -/
def entryPlan (p : Program) (c : Config) : Except Error EntryPlan :=
  if (p.function? c.entryFunction).isNone then .error (.missingEntryPoint c.entryFunction)
  else
    match p.globals.find? fun g => g.needsZero && (Constant.zeroOf? g.ty).isNone with
    | some g => .error (.noZeroValue g.name g.ty)
    | none =>
        if (p.function? c.entryTable).isSome then .error (.duplicateSymbol c.entryTable)
        else
          match p.global? c.entryTable, c.tablePolicy with
          | none, _ => .ok .create
          | some _, .keep => .ok .keep
          | some _, .reject => .error (.entryTableExists c.entryTable)

/-! ## Oracle bodies -/

/-- What the log says of an oracle that has lost its body. -/
def strippedNote (name : String) : List Event :=
  match Oracle.canonical? name, Oracle.nondet? name with
  | some canonical, some nondet => [.yieldsAny name canonical nondet.type]
  | _, _ => if Oracle.isPrimitive name then [.leftToVerifier name] else []

/-- Drops the body of one function. A function without a body is made external
all the same, which is no event. -/
def stripBody (p : Program) (name : String) : Outcome Bool :=
  match p.function? name with
  | none => { program := p, result := .ok false }
  | some f =>
      let p := p.modify name Func.stripped
      if f.isDeclaration then { program := p, result := .ok false }
      else
        { program := p
          events := .diagnostic { kind := .strippedBody, symbol := name } :: strippedNote name
          result := .ok true }

/-- Drops the bodies of the named functions. -/
def stripBodies (p : Program) : List String → Outcome Bool
  | [] => { program := p, result := .ok false }
  | name :: names =>
      (p.stripBody name).andThen fun p first =>
        (p.stripBodies names).andThen fun p rest =>
          { program := p, result := .ok (first || rest) }

/-! ## Zeros -/

/-- Gives a list of globals their zeros, up to the first that has none. -/
def zeroAll : List Global → List Global × List Event × Except Error Bool
  | [] => ([], [], .ok false)
  | g :: gs =>
      if g.needsZero then
        match Constant.zeroOf? g.ty with
        | none => (g :: gs, [], .error (.noZeroValue g.name g.ty))
        | some zero =>
            let (gs, events, result) := zeroAll gs
            ({ g with initial := some zero } :: gs,
              .diagnostic { kind := .initializedGlobal, symbol := g.name } :: events,
              result.map fun _ => true)
      else
        let (gs, events, result) := zeroAll gs
        (g :: gs, events, result)

/-- Gives every mutable global without an initial value the zero of its type. -/
def zeroGlobals (p : Program) : Outcome Bool :=
  let (globals, events, result) := zeroAll p.globals
  { program := { p with globals }, events, result }

/-! ## The entry table -/

/-- Adds the entry table, or reports the one that is there. -/
def publishEntryTable (p : Program) (c : Config) (plan : EntryPlan) : Outcome Unit :=
  match plan with
  | .create =>
      match p.addGlobal c.entryTableGlobal with
      | .ok p =>
          { program := p
            events := [.diagnostic { kind := .entryTableCreated, symbol := c.entryTable }]
            result := .ok () }
      | .error e => .check p (.error e)
  | .keep =>
      { program := p
        events := [.diagnostic { kind := .entryTableKept, symbol := c.entryTable }]
        result := .ok () }

/-- The stage that prepares the entry. It counts as a change in any case. -/
def prepareEntry (p : Program) (c : Config) : Outcome Bool :=
  (Outcome.check p (p.entryPlan c)).andThen fun p plan =>
    (p.stripBodies c.stripped).andThen fun p _ =>
      p.zeroGlobals.andThen fun p _ =>
        (p.publishEntryTable c plan).andThen fun p _ => { program := p, result := .ok true }

end Program

end ClosedWorld

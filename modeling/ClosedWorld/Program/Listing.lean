import ClosedWorld.Program

/-!
# The listing of a program

The listing is for people: a title, one line for each global, and then every
function after a blank line, with its body if it has one. It shows the linkage
of initialised globals only, and no part of it is read back.
-/

namespace ClosedWorld

/-- A line with its end. -/
def line (s : String) : String := s ++ "\n"

namespace Global

/-- The line of a global. -/
def render (g : Global) : String :=
  let kind := if g.isConstant then "constant " else "global "
  match g.initial with
  | some value =>
      "@" ++ g.name ++ " = " ++ (if g.linkage = .internal then "internal " else "")
        ++ kind ++ value.render
  | none => "@" ++ g.name ++ " = external " ++ kind ++ g.ty.render

end Global

namespace Block

/-- The lines of a block, its label first. -/
def lines (b : Block) : List String := (b.label ++ ":") :: b.instrs.map fun i => "  " ++ i.render

end Block

namespace Func

/-- The result type, the name and the parameters. -/
def header (f : Func) : String :=
  f.ret.render ++ " @" ++ f.name ++ "("
    ++ Ty.parameters (f.params.map Ty.render) f.variadic ++ ")"

/-- The lines of a function. -/
def lines (f : Func) : List String :=
  if f.isDeclaration then ["declare " ++ f.header]
  else ["define " ++ f.header ++ " \x7b"] ++ f.blocks.flatMap Block.lines ++ ["\x7d"]

end Func

namespace Program

/-- The listing of a program. -/
def listing (p : Program) : String :=
  String.join (([s!"; module '{p.name}'"] ++ p.globals.map Global.render
    ++ p.functions.flatMap fun f => "" :: f.lines).map line)

end Program

end ClosedWorld

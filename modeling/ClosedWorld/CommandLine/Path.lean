import ClosedWorld.Text.Lines

/-!
# Paths

A path starts in the working directory, or at the root if its first character is
a slash, and takes one step for each part between its slashes. One dot stays
where it is and two dots go up. The working directory lies in a directory of the
root, so two steps up from it are the root, and so are all further ones. The
names of these two directories are not known, and a `Place` does not need them.
-/

namespace ClosedWorld.CommandLine

/-- A directory that names lead away from. -/
inductive Origin where
  /-- The working directory. -/
  | here
  /-- The directory above the working directory. -/
  | above
  /-- The root of all directories. -/
  | root
  deriving DecidableEq, Inhabited

/-- A place where a file or a directory can be. -/
structure Place where
  origin : Origin
  /-- The names that lead there, none of them made of dots. -/
  names : List String
  deriving DecidableEq, Inhabited

namespace Place

/-- The place of a name in a directory. -/
def child (p : Place) (name : String) : Place := { p with names := p.names ++ [name] }

/-- The directory above another one. The root is above itself. -/
def parent (p : Place) : Place :=
  match p.names, p.origin with
  | [], .here => ⟨.above, []⟩
  | [], _ => ⟨.root, []⟩
  | names, origin => ⟨origin, names.dropLast⟩

/-- The second place is below the first. -/
def isAbove (p q : Place) : Bool :=
  p.origin = q.origin && p.names.isPrefixOf q.names && p.names.length < q.names.length

end Place

/-- A path, taken apart. -/
structure Path where
  origin : Origin
  /-- The steps, none of them empty. -/
  steps : List String
  /-- It ends with a slash. -/
  trailingSlash : Bool
  deriving DecidableEq, Inhabited

namespace Path

/-- The path that a text describes. -/
def ofString (s : String) : Path :=
  let cs := s.toList
  { origin := if cs.head? = some '/' then .root else .here
    steps := ((Text.cut '/' cs).filter (· ≠ [])).map String.ofList
    trailingSlash := cs.getLast? = some '/' }

/-- The most bytes that a path may have. -/
def longest : Nat := 4095

/-- The most bytes that a single name may have. -/
def longestName : Nat := 255

end Path

end ClosedWorld.CommandLine

import ClosedWorld.CommandLine.Files
import ClosedWorld.CommandLine.Path

/-!
# Trees of files

A `FileTree` stands in for a file system where a session is tried out. It knows
the working directory completely, and of what lies outside only what a path can
show: the directories that are there on any system, and the null device. It has
no other devices, no links, no permissions and no limit of space, and its files
hold text.

A directory is whatever has something in it, and every step of a path but the
last has to end in one. Reading and writing part over the last step. A path that
ends with a slash asks for a directory: to a reader a file there is none, while
a writer is turned away before anyone looks.
-/

namespace ClosedWorld.CommandLine

/-- The files of a file system, with what they hold. -/
structure FileTree where
  files : List (Place × String)
  deriving DecidableEq, Inhabited

namespace FileTree

/-- A file that every system has. It is empty, and stays so whatever is written. -/
def nullDevice : Place := ⟨.root, ["dev", "null"]⟩

/-- The directories that every system has at its root. -/
def rootDirectories : List String :=
  ["bin", "boot", "dev", "etc", "home", "lib", "media", "mnt", "opt", "proc", "root", "run",
    "sbin", "srv", "sys", "tmp", "usr", "var"]

/-- A file system whose working directory holds the given files. -/
def ofFiles (files : List (String × String)) : FileTree :=
  ⟨files.map (fun (name, text) => (⟨.here, (Path.ofString name).steps.filter (· ≠ ".")⟩, text))
    ++ [(nullDevice, "")]⟩

/-- There is a file at the place. -/
def isFile (t : FileTree) (p : Place) : Bool := (t.files.lookup p).isSome

/-- There is a directory at the place. -/
def isDirectory (t : FileTree) (p : Place) : Bool :=
  p.names = []
    || t.files.any (fun (file, _) => p.isAbove file)
    || p.origin = .root && rootDirectories.any fun name => p.names = [name]

/-- Takes a step that has to end in a directory. -/
def enter (t : FileTree) (p : Place) (step : String) : Except FileFault Place :=
  if step = "." then .ok p
  else if step = ".." then .ok p.parent
  else if Path.longestName < step.utf8ByteSize then .error .tooLong
  else if t.isDirectory (p.child step) then .ok (p.child step)
  else .error (if t.isFile (p.child step) then .notDirectory else .missing)

/-- Takes all steps of a path but the last. What comes back is the directory
where they end, with the name that the last step looks up there. A path that
ends in dots, or has no steps at all, looks nothing up. -/
def approach (t : FileTree) (name : String) : Except FileFault (Place × Option String) :=
  let path := Path.ofString name
  if Path.longest < name.utf8ByteSize then .error .tooLong
  else
    match path.steps.dropLast.foldlM t.enter ⟨path.origin, []⟩ with
    | .error fault => .error fault
    | .ok p =>
        match path.steps.getLast? with
        | none => if name = "" then .error .missing else .ok (p, none)
        | some step => .ok (p, if step = "." ∨ step = ".." then none else some step)

/-- The text of a file. -/
def read (t : FileTree) (name : String) : Except FileFault String :=
  match t.approach name with
  | .error fault => .error fault
  | .ok (_, none) => .error .isDirectory
  | .ok (p, some step) =>
      if Path.longestName < step.utf8ByteSize then .error .tooLong
      else if t.isDirectory (p.child step) then .error .isDirectory
      else
        match t.files.lookup (p.child step) with
        | some text => if (Path.ofString name).trailingSlash then .error .notDirectory else .ok text
        | none => .error .missing

/-- Replaces the text of a file, or adds the file. -/
def put (files : List (Place × String)) (p : Place) (text : String) : List (Place × String) :=
  match files with
  | [] => [(p, text)]
  | (file, old) :: files =>
      if file = p then (file, text) :: files else (file, old) :: put files p text

/-- Writes a file into a directory that exists. -/
def write (t : FileTree) (name text : String) : Except FileFault FileTree :=
  match t.approach name with
  | .error fault => .error fault
  | .ok (_, none) => .error .isDirectory
  | .ok (p, some step) =>
      if (Path.ofString name).trailingSlash then .error .isDirectory
      else if Path.longestName < step.utf8ByteSize then .error .tooLong
      else if t.isDirectory (p.child step) then .error .isDirectory
      else if p.child step = nullDevice then .ok t
      else .ok ⟨put t.files (p.child step) text⟩

/-- The tree as the file system of a session. A write that fails leaves it as it is. -/
def system : Files (StateM FileTree) where
  read name := fun t => (t.read name, t)
  write name text := fun t =>
    match t.write name text with
    | .ok t => (.ok (), t)
    | .error fault => (.error fault, t)

/-- The files of the working directory in the second file system that the first
lacks or has otherwise. -/
def changes (before after : FileTree) : List (String × String) :=
  after.files.filterMap fun (p, text) =>
    if p.origin ≠ .here ∨ before.files.lookup p = some text then none
    else some (String.intercalate "/" p.names, text)

end FileTree

end ClosedWorld.CommandLine

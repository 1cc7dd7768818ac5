/-!
# The files that a session works on

A session reads whole files as text and writes one. It does no more to a file
system, so whatever can do these two things will serve it: the system that the
program runs on, or a tree of files in which a session is tried out.
-/

namespace ClosedWorld.CommandLine

/-- Why a file cannot be read or written. -/
inductive FileFault where
  /-- There is no such file, or no directory to put it in. -/
  | missing
  /-- A part of the path that has to be a directory is a file. -/
  | notDirectory
  /-- The path is that of a directory. -/
  | isDirectory
  /-- A name, or the whole path, is longer than the system allows. -/
  | tooLong
  /-- Anything else that the system reports. The file may be out of bounds, for
  instance, or the device full, or what is to be read no text. -/
  | other (report : String)
  deriving DecidableEq, Inhabited

/-- The system's words for a fault. -/
def FileFault.message : FileFault → String
  | .missing => "No such file or directory (os error 2)"
  | .notDirectory => "Not a directory (os error 20)"
  | .isDirectory => "Is a directory (os error 21)"
  | .tooLong => "File name too long (os error 36)"
  | .other report => report

/-- A file system, as far as a session needs one. -/
structure Files (m : Type → Type) where
  /-- Reads the file of a name. -/
  read : String → m (Except FileFault String)
  /-- Writes a text to the file of a name, in the place of what it held. -/
  write : String → String → m (Except FileFault Unit)

namespace Files

variable {σ : Type} (files : Files (StateM σ))

/-- What reading the file of a name comes to when the files are as in `s`. -/
def readAt (s : σ) (name : String) : Except FileFault String := ((files.read name).run s).1

/-- What a session relies on. The state `σ` is what the files hold. -/
structure Lawful : Prop where
  /-- Reading leaves the files as they are. -/
  read_keeps (name : String) (s : σ) : ((files.read name).run s).2 = s
  /-- So does a write that fails. -/
  write_fails {name text : String} {s s' : σ} {fault : FileFault} :
    (files.write name text).run s = (.error fault, s') → s' = s

/-- What is written under the name is there to be read. That is so of a plain file, but
not of every name: some devices take what they are given and keep none of it. -/
def Stores (s : σ) (name : String) : Prop :=
  ∀ text s', (files.write name text).run s = (.ok (), s') → files.readAt s' name = .ok text

end Files

end ClosedWorld.CommandLine

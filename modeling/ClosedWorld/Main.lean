import ClosedWorld.CommandLine.Session

/-!
# The program

The outer layer gives a session the files of the system, and shows what it
answers.
-/

namespace ClosedWorld.CommandLine

/-- The fault behind an error of the system. Its number may come negated. -/
def faultOf (e : IO.Error) : FileFault :=
  match e with
  | .noFileOrDirectory .. => .missing
  | .inappropriateType _ code _ =>
      if code = 21 ∨ code + 21 = 0 then .isDirectory else .notDirectory
  | .invalidArgument _ code _ =>
      if code = 36 ∨ code + 36 = 0 then .tooLong else .other (toString e)
  | e => .other (toString e)

/-- Reads a file. -/
def readFile (file : String) : IO (Except FileFault String) := do
  try return .ok (← IO.FS.readFile file) catch e => return .error (faultOf e)

/-- Writes a file. Only a flush brings to light that a device is full. -/
def writeFile (file text : String) : IO (Except FileFault Unit) := do
  try
    IO.FS.withFile file .write fun handle => do
      handle.putStr text
      handle.flush
    return .ok ()
  catch e => return .error (faultOf e)

/-- The files of the system that the program runs on. -/
def systemFiles : Files IO where
  read := readFile
  write := writeFile

end ClosedWorld.CommandLine

open ClosedWorld.CommandLine in
/-- The program. Its log and its failure go to the error stream, and nothing but the
answer to the standard output. -/
def main (args : List String) : IO UInt32 := do
  let reply ← session Arguments.parse systemFiles args
  IO.eprint reply.stderr
  IO.print reply.stdout
  return reply.exitCode.toUInt32

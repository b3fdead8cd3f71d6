/-
The program as an executable, on the files of the system. It has no way to send a request, so
fetching a schema reports that the request did not get through.
-/
import TypedQuery.Program

namespace TypedQuery

/-- The reason in an error of the system. -/
def fileError : IO.Error → FileError
  | .noFileOrDirectory .. => .notFound
  | .alreadyExists .. => .alreadyExists
  | .inappropriateType .. => .isADirectory
  | e => .other e.toString

def attemptFile {α : Type} (x : IO α) : IO (Except FileError α) := do
  try return .ok (← x)
  catch e => return .error (fileError e)

def systemEnvironment : Environment IO where
  isFile path := do return (← attemptFile (IO.FS.readFile path)).isOk
  read path := attemptFile (IO.FS.readFile path)
  makeDirectories path := attemptFile (IO.FS.createDirAll path)
  write path text := attemptFile (IO.FS.writeFile path text)
  send _ := return none

end TypedQuery

def main (arguments : List String) : IO UInt32 := do
  let outcome ← TypedQuery.Program.run TypedQuery.systemEnvironment arguments
  IO.print outcome.stdout
  IO.eprint outcome.stderr
  return UInt32.ofNat outcome.exitCode

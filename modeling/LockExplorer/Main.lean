import LockExplorer.CommandLine

/-!
# The program

Reads the file that the command line names and prints the answer.
-/

namespace LockExplorer

/-- The reason why a file could not be read. The system gives its error number with either sign. -/
def FileError.ofSystem : IO.Error → FileError
  | .noFileOrDirectory .. => .notFound
  | .inappropriateType _ number _ =>
      if number = 21 || number = -21 then .isDirectory else .notDirectory
  | error => .other error.toString

def fileContent (name : String) : IO (Except FileError ByteArray) := do
  match ← (IO.FS.readBinFile name).toBaseIO with
  | .ok bytes => return .ok bytes
  | .error error => return .error (.ofSystem error)

end LockExplorer

open LockExplorer in
def main (arguments : List String) : IO UInt32 := do
  let content ← match CommandLine.Request.of arguments with
    | .explore { path := some name, .. } => fileContent name
    | _ => pure (.error .notFound)
  let response := CommandLine.respond (fun _ => content) arguments
  IO.print response.output
  IO.eprint response.errors
  return response.code

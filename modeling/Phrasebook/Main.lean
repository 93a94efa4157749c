import Phrasebook.Command.Run

/-!
The command line program: it reads its arguments and the files they name, writes the outcome and
ends with its status.
-/

namespace Phrasebook

def depthVariable : String := "LOKAL_MAX_DEPTH"

/-- A directory in the place of a file shows when it is read, and a zero byte before the path is
opened, each with a code of its own. -/
def FileFault.ofError : IO.Error → FileFault
  | .noFileOrDirectory _ _ _ => .missing
  | .invalidArgument _ code _ => if code = 22 then .zeroByte else .nameTooLong
  | .inappropriateType _ code _ => if code = 21 then .isDirectory else .notDirectory
  | .permissionDenied _ _ _ => .denied
  | _ => .notText

def readFile (path : String) : IO FileContent := do
  match ← (IO.FS.readFile path).toBaseIO with
  | .ok content => return .ok content
  | .error error => return .error (.ofError error)

open Command in
def conclude : Except Failure Outcome → IO Status
  | .ok outcome => do
      IO.print outcome.output
      IO.eprint outcome.remarks
      return outcome.status
  | .error failure => do
      IO.eprintln s!"error: {failure.message}"
      return .failure

open Command in
def execute (arguments : List String) : IO Status := do
  match Request.read (← IO.getEnv depthVariable) arguments with
  | .ok request => conclude (← request.run readFile)
  | .error error =>
      IO.eprintln s!"error: {error.message}"
      return .misuse

end Phrasebook

def main (arguments : List String) : IO UInt32 := do
  let status ← Phrasebook.execute arguments
  return status.code.toUInt32

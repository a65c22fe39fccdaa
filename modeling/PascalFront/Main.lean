-- The program: it reads the file of a command line from the disk and hands
-- everything else to the commands.
import PascalFront.Commands

namespace PascalFront

/-- Why the system did not give a file, in the cases that it tells apart. Error numbers come with
either sign. -/
def ReadError.ofSystem : IO.Error → ReadError
  | .noFileOrDirectory .. => .notFound
  | .inappropriateType _ code details =>
    match min code (0 - code) with
    | 20 => .notDirectory
    | 21 => .isDirectory
    | _ => .other details
  | e => .other (toString e)

/-- The text of a file on the disk. -/
def readDisk (path : String) : IO (Except ReadError String) := do
  match ← (IO.FS.readBinFile path).toBaseIO with
  | .ok bytes => return textOf bytes
  | .error e => return .error (.ofSystem e)

end PascalFront

open PascalFront

def main (arguments : List String) : IO UInt32 := do
  let contents ← match CommandLine.read? arguments with
    | some (.run _ command) => readDisk command.file
    | _ => pure (.error .notFound)
  let response := runCommandLine (fun _ => contents) arguments
  IO.print response.output
  IO.eprint response.messages
  return response.code.toUInt32

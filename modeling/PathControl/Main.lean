/-
  PathControl/Main.lean
  =====================
  **The program.**

  It reads the files that the command line names, writes what the library computes, and
  ends as the library says.
-/
import PathControl.CommandLine

open PathControl

/-- The files that a request names, with their texts as far as they can be read. -/
def readFiles (request : CommandRequest) : IO (List (String × String)) :=
  match request with
  | .run options => do
    let found ← options.files.mapM fun file => do
      try return [(file, ← IO.FS.readFile ⟨file⟩)] catch _ => return []
    return found.flatten
  | _ => return []

def main (arguments : List String) : IO UInt32 := do
  let request := CommandRequest.ofCommandLine arguments
  let files ← readFiles request
  let result := request.execute fun file => files.lookup file
  for line in result.lines do
    IO.println line
  if let some failure := result.failure then
    IO.eprintln s!"Error: {failure.message}"
  return result.exitCode.number.toUInt32

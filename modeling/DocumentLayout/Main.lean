import DocumentLayout.CommandLine.Run

/-!
# The program

Reads the files that its arguments name, and prints what the request amounts to.
-/

open DocumentLayout DocumentLayout.CommandLine

/-- The bytes of the file at a path, if there is one that can be read. -/
def readFile? (path : Text) : IO (Option ByteArray) := do
  try
    return some (← IO.FS.readBinFile (String.ofList path))
  catch _ => return none

/-- The files at the given paths. -/
def readFiles (paths : List Text) : IO Files := do
  let mut found : List (Text × ByteArray) := []
  for path in paths do
    match ← readFile? path with
    | some bytes => found := (path, bytes) :: found
    | none => pure ()
  return fun path => found.lookup path

def main (arguments : List String) : IO UInt32 := do
  let request := Request.ofArguments (arguments.map String.toList)
  let files ← readFiles request.paths
  let environment := match ← IO.getEnv (String.ofList noColorVariable) with
    | some _ => [noColorVariable]
    | none => []
  let outcome := request.outcome files environment
  IO.print (String.ofList outcome.output)
  for failure in outcome.failures do
    let code := match failure.code? with
      | some code => String.ofList code ++ ": "
      | none => ""
    IO.eprintln (code ++ String.ofList failure.message)
  return outcome.status.toUInt32

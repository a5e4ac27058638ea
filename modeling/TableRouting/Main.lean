import TableRouting.CommandLine.Run

/-!
# The program

The machine that the program runs on, and the program itself: the report of a run
is printed, what went wrong on the error output.
-/

namespace TableRouting

def FileError.ofMachine : IO.Error → FileError
  | .noFileOrDirectory .. => .notFound
  | .alreadyExists .. => .exists
  | .inappropriateType _ 21 _ => .isDirectory
  | .inappropriateType .. => .notDirectory
  | .permissionDenied _ code detail => .other s!"{detail} (os error {code})"
  | .resourceExhausted _ code detail => .other s!"{detail} (os error {code})"
  | .invalidArgument _ code detail => .other s!"{detail} (os error {code})"
  | error => .other error.toString

def attemptOnMachine {α : Type} (act : IO α) : IO (Except FileError α) := do
  try
    return .ok (← act)
  catch error =>
    return .error (.ofMachine error)

/-- Make a directory and the missing ones above it. Where none above it is missing,
what one attempt at the directory itself shows is the failure, unless the directory
is there already. -/
def makeDirectoriesOnMachine (path : String) : IO (Except FileError Unit) := do
  if path.isEmpty then
    return .ok ()
  match ← attemptOnMachine (IO.FS.createDir path) with
  | .ok () => return .ok ()
  | .error .notFound => attemptOnMachine (IO.FS.createDirAll path)
  | .error e =>
    match ← attemptOnMachine (IO.FS.createDirAll path) with
    | .ok () => return .ok ()
    | .error _ => return .error e

instance : Host IO where
  createDirAll path := makeDirectoriesOnMachine path
  append path text := attemptOnMachine (IO.FS.withFile path .append (·.putStr text))
  truncate path := attemptOnMachine (IO.FS.writeFile path "")
  read path := attemptOnMachine (IO.FS.readBinFile path)
  now := IO.monoMsNow

end TableRouting

def main (arguments : List String) : IO UInt32 := do
  let report : TableRouting.CommandLine.RunReport ← TableRouting.CommandLine.run arguments
  IO.print report.output
  for issue in report.issues do
    IO.eprintln ("  " ++ issue.text)
  match report.failure with
  | some failure => IO.eprintln ("Command failed: " ++ failure.message)
  | none => pure ()
  return report.exitCode.number

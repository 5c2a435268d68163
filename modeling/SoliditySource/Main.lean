import SoliditySource.Command

/-! The command on the files of the machine. -/

namespace SoliditySource

def readFailure : IO.Error → ReadFailure
  | .inappropriateType .. => .isDirectory
  | .illegalOperation .. => .isDirectory
  | .invalidArgument .. => .nameTooLong
  | _ => .notFound

def readText (path : String) : IO (Except ReadFailure String) := do
  try
    let bytes ← IO.FS.readBinFile path
    match String.fromUTF8? bytes with
    | some text => return .ok text
    | none => return .error .notText
  catch e => return .error (readFailure e)

def carryOut : Command.Effect → IO UInt32
  | .print text => do
    IO.print text
    return 0
  | .save path text => do
    try
      IO.FS.writeFile path text
      return 0
    catch _ =>
      IO.eprintln ("failed to write " ++ path)
      return 1

/-- The report of a problem on standard error. -/
def reportProblem (problem : Manifest.Problem) : IO Unit := do
  IO.eprintln problem.message
  for (text, span) in problem.labels do
    IO.eprintln ("  " ++ toString span.offset ++ ": " ++ text)
  if let some help := problem.help then
    IO.eprintln ("help: " ++ help)

end SoliditySource

open SoliditySource in
def main (words : List String) : IO UInt32 := do
  match Command.Invocation.parse words with
  | .error .version =>
    IO.print Command.versionText
    return 0
  | .error .help =>
    IO.print Command.helpText
    return 0
  | .error (.usage error) =>
    IO.eprintln error.message
    return 2
  | .ok invocation =>
    match invocation.run (← readText invocation.config) with
    | .error problem =>
      reportProblem problem
      return 1
    | .ok effect => carryOut effect

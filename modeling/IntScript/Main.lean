import IntScript.Command.CommandLine

/-!
The program on the command line: it reads a file, and writes what the library answers.
-/

namespace IntScript.CommandLine

def readError : IO.Error → ReadError
  | .noFileOrDirectory _ _ _ => .notFound
  | .inappropriateType _ 20 _ => .notDirectory
  | .inappropriateType _ 21 _ => .isDirectory
  | error => .other (toString error)

def readFile (path : String) : IO (Except ReadError String) := do
  try
    let bytes ← IO.FS.readBinFile path
    match String.fromUTF8? bytes with
    | some text => return .ok text
    | none => return .error .invalidText
  catch error =>
    return .error (readError error)

def emit (outcome : Outcome) : IO UInt32 := do
  IO.print outcome.stdout
  IO.eprint outcome.stderr
  return outcome.exitCode

end IntScript.CommandLine

open IntScript CommandLine in
def main (arguments : List String) : IO UInt32 := do
  match Request.ofArguments arguments with
  | .answer outcome => emit outcome
  | .file command options =>
      match process command options (← readFile options.path) with
      | some outcome => emit outcome
      | none => return 1

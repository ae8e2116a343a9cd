import IplReport.Command.Run

/-!
# The command

Reads the files that a command line names, runs it and prints what it leaves behind.
-/

namespace IplReport

/-- The reason for a failed read of a file. -/
def fileError : IO.Error → FileError
  | .noFileOrDirectory .. => .notFound
  | .inappropriateType _ number _ =>
    if number == 21 then .isADirectory else .notADirectory
  | .invalidArgument _ number details =>
    if number == 36 then .nameTooLong else .other details number.toNat
  | .permissionDenied _ number details => .other details number.toNat
  | e => .other (toString e) 0

def readFile (path : String) : IO (Except FileError Bytes) := do
  try
    return .ok (← IO.FS.readBinFile path).toList
  catch e =>
    return .error (fileError e)

def namedFiles (arguments : List String) : List String :=
  match Command.Invocation.ofArguments arguments with
  | .ok i => i.config.toList ++ [i.dump]
  | .error _ => []

end IplReport

open IplReport in
/-- Runs the command line. -/
def main (arguments : List String) : IO UInt32 := do
  let files ← (namedFiles arguments).mapM fun path => do return (path, ← readFile path)
  let outcome := Command.run .brief arguments fun path => (files.lookup path).getD (.error .notFound)
  IO.print outcome.stdout
  IO.eprint outcome.stderr
  return outcome.code.toUInt32

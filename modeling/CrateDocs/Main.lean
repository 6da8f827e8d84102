import CrateDocs.Command.Run

/-!
# The program

Looks at the files that the command line names, runs the command, and prints its outcome.
-/

namespace CrateDocs

namespace Program

def look (path : String) : IO FileState := do
  try
    return .file (← IO.FS.readBinFile path)
  catch
    | .noFileOrDirectory _ _ _ => return .unreachable .missing
    | .inappropriateType _ 21 _ => return .directory directorySize
    | .inappropriateType _ _ _ => return .unreachable .blocked
    | .invalidArgument _ code message =>
      return .unreachable (if code = 36 ∨ code = 0 - 36 then .nameTooLong else .other message)
    | error => return .unreachable (.other (toString error))

/-- What is found under the paths that a command line names. -/
def lookAll (paths : List String) : IO Files := do
  let found ← paths.mapM fun path => return (path, ← look path)
  return fun path => (found.lookup path).getD (.unreachable .missing)

def complaint : Command.Outcome → List String
  | .usage => ["error: the command line is not understood"]
  | .failed error =>
    ("Error: " ++ error.message) ::
      error.cause?.toList.flatMap fun cause => ["", "Caused by:", "    " ++ cause]
  | .finished _ _ => []

end Program

end CrateDocs

open CrateDocs in
def main (arguments : List String) : IO UInt32 := do
  let paths :=
    match Command.Invocation.ofArguments? arguments with
    | some invocation => invocation.file :: invocation.config.toList
    | none => []
  let outcome := Command.run (← Program.lookAll paths) arguments
  IO.print outcome.output
  (Program.complaint outcome).forM IO.eprintln
  return .ofNat outcome.exitCode

import Hypertemplate.CommandLine.Run

/-!
# The program

Reads the files that the arguments name and the environment, and writes the outcome of
`CommandLine.run`. Requests are not sent: the program runs as on a network that no request gets through.
-/

open Hypertemplate.CommandLine

/-- The text of a file, or why it has none. -/
def readText (name : String) : IO (Except String String) := do
  try
    let bytes ← IO.FS.readBinFile name
    return match String.fromUTF8? bytes with
      | some text => .ok text
      | none => .error "stream did not contain valid UTF-8"
  catch
    | .noFileOrDirectory .. => return .error "No such file or directory (os error 2)"
    | .permissionDenied .. => return .error "Permission denied (os error 13)"
    | e => return .error (toString e)

/-- The files that a run may read. -/
def filesOf : Invocation → List String
  | .scan file config => ".env" :: file :: config.toList
  | .render file _ _ config _ => ".env" :: file :: config.toList

def environment : IO Variables := do
  let names := ["HTMJ_BASE_URL", "HTMJ_ATTR_PREFIX", "HTMJ_NESTED_ARRAY_ATTR"]
  let values ← names.mapM fun name => do return (← IO.getEnv name).map fun value => (name, value)
  return values.filterMap id

def main (arguments : List String) : IO UInt32 := do
  let names := match Invocation.ofArguments arguments with
    | .ok invocation => filesOf invocation
    | .error _ => []
  let texts ← names.mapM fun name => do return (name, ← readText name)
  let files : Files := fun name =>
    ((texts.find? (·.1 == name)).map (·.2)).getD (.error "No such file or directory (os error 2)")
  let outcome := run .unreachable files (← environment) arguments
  (← IO.getStdout).putStr outcome.stdout
  (← IO.getStderr).putStr outcome.stderr
  return outcome.code.toUInt32

import Hypertemplate.Binding.Diagnose
import Hypertemplate.CommandLine.Arguments
import Hypertemplate.CommandLine.Environment
import Hypertemplate.Document.Print
import Hypertemplate.Engine.Run
import Hypertemplate.Html.Parse
import Hypertemplate.Settings.Yaml

/-!
# Running the command line

`run` is the whole program as a function of the network, the files that it may read, the environment and the
arguments.
`scan` lists the bindings of a page. `render` runs them, fires events, and writes the page that results.
-/

namespace Hypertemplate.CommandLine

open Hypertemplate.Text

/-- The files that can be read: the text of a file, or why it has none. -/
abbrev Files := String → Except String String

def Files.read (files : Files) (name : String) : Except Failure String :=
  (files name).mapError .io

/-- The settings of a run: those of a file, and then the environment. -/
def loadSettings (files : Files) (env : Variables) (config : Option String) :
    Except Failure Settings := do
  let settings ← match config with
    | none => pure {}
    | some name => do Settings.ofYaml (← files.read name)
  settings.withEnvironment env.get?

/-! ## Listing bindings -/

/-- When a binding runs. -/
def triggerText (d : Document) (b : Binding) : String :=
  if b.event = loadEvent then "load" else b.event ++ " @ " ++ d.describe b.eventTarget

def bindingLines (d : Document) (names : AttributeNames) (b : Binding) : List String :=
  let diagnostics := d.diagnose names b.template
  ["→ template #" ++ toString b.template ++ " " ++ b.method ++ " " ++ b.endpoint ++ " on " ++
      triggerText d b ++ " → " ++ d.describe b.target ++ " (" ++ b.action.name ++ ")"] ++
    (b.errorHandler.toList.map fun name => "    errors → " ++ name) ++
    (diagnostics.map fun x => "    ! " ++ x.message)

def unlines (lines : List String) : String := String.join (lines.map (· ++ "\n"))

/-- List the bindings of a page. -/
def scan (files : Files) (env : Variables) (file : String) (config : Option String) :
    Except Failure String := do
  let html ← files.read file
  let settings ← loadSettings files env config
  let d := Document.parse html
  let bindings := d.bindings settings.names
  return unlines
    (bindings.flatMap (bindingLines d settings.names) ++ [toString bindings.length ++ " bindings"])

/-! ## Rendering a page -/

/-- A selector and an event, on the two sides of the last colon. -/
def dispatchOf (spec : String) : Except Failure (String × String) :=
  let cs := spec.toList
  let event := (cs.reverse.takeWhile (· != ':')).reverse
  let selector := cs.take (cs.length - event.length - 1)
  if !cs.contains ':' || selector.all isBlank || event.all isBlank then .error (.invalidDispatch spec)
  else .ok (trim (String.ofList selector), trim (String.ofList event))

/-- The engine of a page: the handlers that its bindings name write their messages. -/
def engineFor (network : Network) (settings : Settings) (d : Document) : Engine :=
  let handlers := (d.bindings settings.names).filterMap (·.errorHandler)
  { document := d
    settings
    transport := .network network
    handlers := handlers.foldl (fun hs name => hs.register name fun _ => .done) {} }

/-- Fire events in order until one cannot be fired. -/
def dispatchAll (e : Engine) : List (String × String) → Engine × Option Failure
  | [] => (e, none)
  | (selector, event) :: rest =>
    match e.dispatchAt selector event with
    | .ok (_, e) => dispatchAll e rest
    | .error failure => (e, some failure)

/-- What handlers write. -/
def handlerLines (e : Engine) : String :=
  unlines (e.calls.map fun (name, message) => "handler " ++ name ++ ": " ++ message)

/-- The settings and the events for a page. -/
def prepare (network : Network) (files : Files) (env : Variables) (file : String)
    (baseUrl : Option String) (dispatches : List String) (config : Option String) :
    Except Failure (Engine × List (String × String)) := do
  let html ← files.read file
  let settings ← loadSettings files env config
  let settings ← match baseUrl with
    | some base => settings.withBaseUrl base
    | none => pure settings
  let events ← dispatches.mapM dispatchOf
  let e := engineFor network settings (Document.parse html)
  Client.check settings.userAgent
  return (e, events)

/-! ## Outcomes -/

/-- What a failure writes. -/
def failureText (failure : Failure) : String :=
  "Error: " ++ failure.message ++ "\n  Fix: " ++ failure.fix ++ "\n"

def failed (failure : Failure) : Outcome := { code := 1, stderr := failureText failure }

/-- Run a page, fire events and write the page that results. -/
def renderPage (e : Engine) (events : List (String × String)) (showEvents : Bool) : Outcome :=
  let (e, failure) := dispatchAll e.start.2 events
  match failure with
  | some failure => { code := 1, stderr := handlerLines e ++ failureText failure }
  | none =>
    { stdout := e.document.toHtml ++ "\n"
      stderr := handlerLines e ++ (if showEvents then e.journal.toJson.text ++ "\n" else "") }

def Invocation.run (network : Network) (files : Files) (env : Variables) : Invocation → Outcome
  | .scan file config =>
    match CommandLine.scan files env file config with
    | .ok stdout => { stdout }
    | .error failure => failed failure
  | .render file baseUrl dispatches config showEvents =>
    match prepare network files env file baseUrl dispatches config with
    | .ok (e, events) => renderPage e events showEvents
    | .error failure => failed failure

/-- The environment with the variables of the file `.env`, if there is one. -/
def withEnvironmentFile (files : Files) (env : Variables) : Variables :=
  match files ".env" with
  | .ok text => env.withFile text
  | .error _ => env

def run (network : Network) (files : Files) (env : Variables) (arguments : List String) : Outcome :=
  match Invocation.ofArguments arguments with
  | .error outcome => outcome
  | .ok invocation => invocation.run network files (withEnvironmentFile files env)

end Hypertemplate.CommandLine

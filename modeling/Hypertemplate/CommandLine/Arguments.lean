import Hypertemplate.CommandLine.Command
import Hypertemplate.Text.Likeness

/-!
# Arguments of the command line

A command line names a command, a page and options. `Invocation.ofArguments` reads it; where it cannot be
read, or asks for help or the version, the answer is a finished `Outcome`. A misspelt name is answered with
the name that is likely meant.
-/

namespace Hypertemplate.CommandLine

open Hypertemplate.Text

/-- What a run leaves behind: its exit code and what it wrote. -/
structure Outcome where
  code : Nat := 0
  stdout : String := ""
  stderr : String := ""
  deriving DecidableEq, Repr, Inhabited

/-! ## Faults -/

/-- A command line that cannot be read. -/
def faulty (paragraphs : List String) : Outcome :=
  { code := 2, stderr := "error: " ++ "\n\n".intercalate paragraphs ++ "\n" }

/-- The fault that a message tells, with advice, how the command is used, and where there is more. -/
def refuse (message : String) (tips : List String) (usage : Option String) : Outcome :=
  let advice := if tips.isEmpty then [] else ["\n".intercalate (tips.map ("  tip: " ++ ·))]
  faulty ([message] ++ advice ++ usage.toList ++ ["For more information, try '--help'."])

def unexpected (argument : String) (tips : List String) (usage : String) : Outcome :=
  refuse ("unexpected argument '" ++ argument ++ "' found") tips (some usage)

/-- How to pass an argument that looks like an option. -/
def asValue (argument : String) : String :=
  "to pass '" ++ argument ++ "' as a value, use '-- " ++ argument ++ "'"

def similarOption (o : OptionSpec) : String := "a similar argument exists: '--" ++ o.name ++ "'"

def missingValue (o : OptionSpec) : Outcome :=
  refuse ("a value is required for '" ++ o.usage ++ "' but none was supplied") [] none

/-- A value for an option that takes none. -/
def unexpectedValue (o : OptionSpec) (value usage : String) : Outcome :=
  refuse ("unexpected value '" ++ value ++ "' for '" ++ o.usage ++ "' found; no more were expected") []
    (some usage)

def notACommand (name : String) : String := "unrecognized subcommand '" ++ name ++ "'"

/-- A name that is no command's, with the commands that may be meant. -/
def unrecognized (name : String) : Outcome :=
  let tips := match alike name commandNames with
    | [] => []
    | [one] => ["a similar subcommand exists: '" ++ one ++ "'"]
    | several =>
      ["some similar subcommands exist: " ++ ", ".intercalate (several.map fun s => "'" ++ s ++ "'")]
  refuse (notACommand name) tips (some mainUsage)

/-- The option that a misspelt long name means most likely. -/
def meantOption? (options : List OptionSpec) (name : String) : Option OptionSpec :=
  (alike name (options.map (·.name))).getLast?.bind fun meant => options.find? (·.name == meant)

/-! ## The form of an argument -/

/-- What an argument is by its form. -/
inductive Argument where
  /-- An option, with a value that is attached to it. -/
  | option (spec : OptionSpec) (attached : Option String)
  /-- A long name that is no option's. -/
  | unknownName (name : String)
  /-- A letter that is no option's. -/
  | unknownLetter (letter : Char)
  | value (text : String)
  /-- All further arguments are values. -/
  | separator

/-- The value after an equals sign. -/
def attachedValue : List Char → Option String
  | '=' :: value => some (String.ofList value)
  | _ => none

/-- What an argument is where these are the options. -/
def Argument.of (options : List OptionSpec) (text : String) : Argument :=
  match text.toList with
  | ['-', '-'] => .separator
  | '-' :: '-' :: long =>
    let name := String.ofList (long.takeWhile (· != '='))
    match options.find? (·.name == name) with
    | some o => .option o (attachedValue (long.dropWhile (· != '=')))
    | none => .unknownName name
  | '-' :: letter :: attached =>
    match options.find? (·.letter == some letter) with
    | none => .unknownLetter letter
    | some o =>
      .option o (if o.valueName.isNone || attached.isEmpty then none
        else some ((attachedValue attached).getD (String.ofList attached)))
  | _ => .value text

/-! ## The arguments of a command -/

/-- What the arguments so far give: the page, the values of the options, each option where it was given
first, and an option whose value may still be awaited. -/
structure Given where
  file : Option String := none
  values : List (OptionSpec × List String) := []
  latest : Option (OptionSpec × Option String) := none

namespace Given

def options (g : Given) : List OptionSpec := g.values.map (·.1)

def valuesOf (g : Given) (name : String) : List String :=
  ((g.values.find? (·.1.name == name)).map (·.2)).getD []

def has (g : Given) (name : String) : Bool := g.values.any (·.1.name == name)

/-- The usage line that shows the options given and another. -/
def usageWith (g : Given) (c : CommandSpec) (another : Option OptionSpec) : String :=
  c.usageWith (g.options ++ another.toList.filter fun o => !g.has o.name)

def add (g : Given) (c : CommandSpec) (o : OptionSpec) (value : Option String) : Except Outcome Given :=
  if !g.has o.name then .ok { g with values := g.values ++ [(o, value.toList)] }
  else if o.mayRepeat then
    let extend := fun (p, vs) => if p.name == o.name then (p, vs ++ value.toList) else (p, vs)
    .ok { g with values := g.values.map extend }
  else
    .error (refuse ("the argument '" ++ o.usage ++ "' cannot be used multiple times") [] (some c.usage))

/-- Settle the latest option: it needs its value by now. -/
def settle (g : Given) (c : CommandSpec) : Except Outcome Given :=
  match g.latest with
  | none => .ok g
  | some (o, none) => .error (missingValue o)
  | some (o, some value) => { g with latest := none }.add c o value

/-- Why a long name that is no option's is refused. -/
def refuseName (g : Given) (c : CommandSpec) (name : String) : Outcome :=
  let g := match g.settle c with
    | .ok g => g
    | .error _ => g
  match meantOption? c.options name with
  | some o => unexpected ("--" ++ name) [similarOption o] (g.usageWith c (some o))
  | none =>
    unexpected ("--" ++ name) [asValue ("--" ++ name)]
      (if g.file.isNone && g.values.isEmpty then c.usage else g.usageWith c none)

def refuseLetter (c : CommandSpec) (letter : Char) : Outcome :=
  let shown := String.ofList ['-', letter]
  unexpected shown [asValue shown] c.usage

/-- Take a value: for the option that awaits one, else as the page. -/
def takeValue (g : Given) (c : CommandSpec) (onlyValues : Bool) (text : String) : Except Outcome Given :=
  match g.latest, onlyValues, g.file with
  | some (o, none), false, _ => .ok { g with latest := some (o, some text) }
  | _, _, some _ => .error (unexpected text [] c.usage)
  | _, _, none => do return { ← g.settle c with file := some text }

def takeOption (g : Given) (c : CommandSpec) (o : OptionSpec) (attached : Option String) :
    Except Outcome Given :=
  match o.valueName, attached with
  | none, some value => .error (unexpectedValue o value (g.usageWith c (some o)))
  | none, none => do
    let g ← g.settle c
    if o.name = "help" then throw { stdout := c.help } else g.add c o none
  | some _, some value => do (← g.settle c).add c o (some value)
  | some _, none => do return { ← g.settle c with latest := some (o, none) }

end Given

def readArguments (c : CommandSpec) : (onlyValues : Bool) → Given → List String → Except Outcome Given
  | _, g, [] => g.settle c
  | onlyValues, g, text :: rest =>
    match (if onlyValues then .value text else Argument.of c.options text) with
    | .separator => readArguments c true g rest
    | .unknownName name => .error (g.refuseName c name)
    | .unknownLetter letter => .error (Given.refuseLetter c letter)
    | .value text => do readArguments c onlyValues (← g.takeValue c onlyValues text) rest
    | .option o attached => do readArguments c onlyValues (← g.takeOption c o attached) rest

/-- Read the arguments of a command and require a page. -/
def CommandSpec.read (c : CommandSpec) (arguments : List String) : Except Outcome (String × Given) := do
  let g ← readArguments c false {} arguments
  match g.file with
  | some file => return (file, g)
  | none =>
    throw (refuse "the following required arguments were not provided:\n  <FILE>" []
      (some (c.usageWith g.options)))

/-! ## The whole command line -/

/-- What is to be done with a page. -/
inductive Invocation where
  | scan (file : String) (config : Option String)
  | render (file : String) (baseUrl : Option String) (dispatches : List String) (config : Option String)
      (showEvents : Bool)
  deriving DecidableEq, Repr

/-- The answer to a request for help on a command. -/
def helpOn : List String → Outcome
  | [] => { stdout := mainHelp }
  | name :: rest =>
    match commands.find? (·.name == name), rest with
    | some c, [] => { stdout := c.help }
    | some c, other :: _ => refuse (notACommand other) [] (some c.usage)
    | none, _ =>
      if name != "help" then refuse (notACommand name) [] (some mainUsage)
      else match rest with
        | [] => { stdout := helpHelp }
        | other :: _ => faulty [notACommand other, helpUsage]

/-- Why a long name before the command is refused: an option of the program may be meant, or one of a
command that follows. -/
def refuseMainName (name : String) (rest : List String) : Outcome :=
  match meantOption? mainOptions name with
  | some o => unexpected ("--" ++ name) [similarOption o] (mainUsageWith [o])
  | none =>
    let meant := commands.filterMap fun c =>
      (meantOption? c.options name).bind fun o =>
        (rest.idxOf? c.name).map fun place => (place, "'" ++ c.name ++ " --" ++ o.name ++ "' exists")
    let first := meant.foldl (fun best x => match best with
      | none => some x
      | some b => some (if x.1 < b.1 then x else b)) none
    unexpected ("--" ++ name) (first.toList.map (·.2)) mainUsage

/-- The answer to an option of the program. -/
def answerOption (o : OptionSpec) : Option String → Outcome
  | some value => unexpectedValue o value (mainUsageWith [o])
  | none => { stdout := if o.name = "version" then "htmj 0.1.0\n" else mainHelp }

/-- The answer to a command line without a command. -/
def noCommand : Outcome := { code := 2, stderr := mainHelp }

/-- The answer to what follows a separator in front of the command. -/
def afterSeparator : List String → Outcome
  | [] => noCommand
  | name :: _ =>
    if commandNames.contains name then
      unexpected name ["subcommand '" ++ name ++ "' exists; to use it, remove the '--' before it"] mainUsage
    else unrecognized name

/-- Read a command line without the name of the program. -/
def Invocation.ofArguments (arguments : List String) : Except Outcome Invocation :=
  match arguments with
  | [] => .error noCommand
  | "help" :: rest => .error (helpOn rest)
  | "scan" :: rest => do
    let (file, g) ← scanCommand.read rest
    return .scan file (g.valuesOf "config").head?
  | "render" :: rest => do
    let (file, g) ← renderCommand.read rest
    return .render file (g.valuesOf "base-url").head? (g.valuesOf "dispatch") (g.valuesOf "config").head?
      (g.has "events")
  | other :: rest =>
    match Argument.of mainOptions other with
    | .separator => .error (afterSeparator rest)
    | .unknownName name => .error (refuseMainName name rest)
    | .unknownLetter letter => .error (unexpected (String.ofList ['-', letter]) [] mainUsage)
    | .value name => .error (unrecognized name)
    | .option o attached => .error (answerOption o attached)

end Hypertemplate.CommandLine

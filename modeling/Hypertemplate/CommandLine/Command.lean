/-!
# Commands

A command of the program takes a page and options. Here are the commands, their help, and the lines that say
how they are used.
-/

namespace Hypertemplate.CommandLine

/-- An option with a long name and maybe a letter; it takes a value if the value has a name. -/
structure OptionSpec where
  name : String
  letter : Option Char := none
  valueName : Option String := none
  mayRepeat : Bool := false
  about : String
  deriving DecidableEq, Repr, Inhabited

/-- How an option is written in usage lines. -/
def OptionSpec.usage (o : OptionSpec) : String :=
  "--" ++ o.name ++ ((o.valueName.map fun v => " <" ++ v ++ ">").getD "")

/-- A command, with the options that are its own. -/
structure CommandSpec where
  name : String
  about : String
  ownOptions : List OptionSpec
  deriving DecidableEq, Repr, Inhabited

/-- The option that every command has. -/
def helpOption : OptionSpec := { name := "help", letter := some 'h', about := "Print help" }

def versionOption : OptionSpec := { name := "version", letter := some 'V', about := "Print version" }

def CommandSpec.options (c : CommandSpec) : List OptionSpec := c.ownOptions ++ [helpOption]

def configOption : OptionSpec :=
  { name := "config", letter := some 'c', valueName := some "CONFIG", about := "YAML config file" }

def scanCommand : CommandSpec :=
  { name := "scan", about := "List the bindings declared in a page", ownOptions := [configOption] }

def renderCommand : CommandSpec :=
  { name := "render"
    about := "Run the page's bindings and print the resulting HTML"
    ownOptions :=
      [{ name := "base-url", letter := some 'b', valueName := some "BASE_URL"
         about := "Base URL for relative endpoints" },
        { name := "dispatch", letter := some 'd', valueName := some "SELECTOR:EVENT", mayRepeat := true
          about := "Event to fire after load, in order (e.g. '#load-btn:click')" },
        configOption,
        { name := "events", about := "Print the pipeline event log as JSON to stderr" }] }

def commands : List CommandSpec := [scanCommand, renderCommand]

/-- The options of the program itself. -/
def mainOptions : List OptionSpec := [helpOption, versionOption]

/-- The names that may follow the program's, that of the command for help at the end. -/
def commandNames : List String := commands.map (·.name) ++ ["help"]

/-! ## Usage -/

def mainUsage : String := "Usage: htmj <COMMAND>"

/-- The usage line of the program for options that were given. -/
def mainUsageWith (given : List OptionSpec) : String :=
  "Usage: htmj" ++ String.join (given.map fun o => " " ++ o.usage) ++ " <COMMAND>"

def helpUsage : String := "Usage: htmj help [COMMAND]..."

def CommandSpec.usage (c : CommandSpec) : String := "Usage: htmj " ++ c.name ++ " [OPTIONS] <FILE>"

/-- The usage line of a command for options that were given. -/
def CommandSpec.usageWith (c : CommandSpec) (given : List OptionSpec) : String :=
  "Usage: htmj " ++ c.name ++ String.join (given.map fun o => " " ++ o.usage) ++ " <FILE>"

/-! ## Help -/

/-- Lines of two columns. -/
def columns (rows : List (String × String)) : String :=
  let width := (rows.map (·.1.length)).foldl max 0
  String.join (rows.map fun (a, b) => "  " ++ a ++ "".pushn ' ' (width - a.length + 2) ++ b ++ "\n")

/-- An option's row in a list of options. -/
def OptionSpec.row (o : OptionSpec) : String × String :=
  (((o.letter.map fun l => "-" ++ String.singleton l ++ ", ").getD "    ") ++ o.usage, o.about)

def helpAbout : String := "Print this message or the help of the given subcommand(s)"

def mainHelp : String :=
  "Declarative fetch-and-render bindings for HTML templates\n\n" ++ mainUsage ++ "\n\nCommands:\n" ++
    columns (commands.map (fun c => (c.name, c.about)) ++ [("help", helpAbout)]) ++
    "\nOptions:\n" ++ columns (mainOptions.map OptionSpec.row)

def CommandSpec.help (c : CommandSpec) : String :=
  c.about ++ "\n\n" ++ c.usage ++ "\n\nArguments:\n" ++ columns [("<FILE>", "Path to the HTML page")] ++
    "\nOptions:\n" ++ columns (c.options.map OptionSpec.row)

/-- The help of the command for help. -/
def helpHelp : String :=
  helpAbout ++ "\n\n" ++ helpUsage ++ "\n\nArguments:\n" ++
    columns [("[COMMAND]...", "Print help for the subcommand(s)")]

end Hypertemplate.CommandLine

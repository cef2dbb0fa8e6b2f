namespace SandboxHost.CommandLine

inductive Verb where
  | call
  | exec
  | constants
  | terminal
  deriving DecidableEq

namespace Verb

def all : List Verb := [.call, .exec, .constants, .terminal]

def name : Verb → String
  | .call => "call"
  | .exec => "exec"
  | .constants => "constants"
  | .terminal => "terminal"

def ofName? (word : String) : Option Verb := all.find? (·.name == word)

def about : Verb → String
  | .call => "Call an exported function"
  | .exec => "Load argv[0] as a library inside the module and run its main"
  | .constants => "Print the module's POSIX constants as JSON"
  | .terminal => "Start the module's terminal with stdin served from this process"

def arguments : Verb → List (String × String)
  | .call => [moduleArgument, ("<FUNCTION>", "Function name"), ("[ARGS]...", "Numeric arguments")]
  | .exec => [moduleArgument, ("<ARGV>...", "Library and its arguments")]
  | .constants => [moduleArgument]
  | .terminal => [moduleArgument, ("[ARGV]...", "Arguments for the terminal")]
where
  moduleArgument := ("<MODULE>", "Module (.wasm or .wat)")

def options : Verb → List (String × String)
  | .call => [("-s, --string <STRING>", "Pass this string as the first argument")]
  | _ => []

end Verb

/-- What help is about: the program, one of its commands, or help itself. -/
inductive Topic where
  | program
  | command (v : Verb)
  | help

def programName : String := "wasm-posix"

def versionText : String := programName ++ " 0.1.0"

def helpAbout : String := "Print this message or the help of the given subcommand(s)"

def commonOptions : List (String × String) :=
  [("-v, --verbose...", "Enable verbose output"),
    ("    --max-memory <MAX_MEMORY>", "Maximum linear memory in MB"),
    ("    --fuel <FUEL>", "Fuel limit (instructions, roughly)"),
    ("    --dir <DIRS>", "Directory to pre-open read-write (repeatable)"),
    ("    --env <ENVS>", "Environment variable KEY=VALUE (repeatable)"),
    ("-h, --help", "Print help")]

/-- A heading over rows of two columns. The second column begins two blanks after the longest entry of
the first. -/
def table (heading : String) (rows : List (String × String)) : List String :=
  let width := rows.foldl (fun n row => max n row.1.length) 0
  "" :: (heading ++ ":") :: rows.map fun (entry, text) =>
    "  " ++ entry.pushn ' ' (width - entry.length + 2) ++ text

def usage (words : List String) : List String :=
  ["", "Usage: " ++ " ".intercalate (programName :: words)]

def helpLines : Topic → List String
  | .program =>
    "Run WebAssembly modules as POSIX processes" :: usage ["[OPTIONS]", "<COMMAND>"] ++
      table "Commands" (Verb.all.map (fun v => (v.name, v.about)) ++ [("help", helpAbout)]) ++
      table "Options" (commonOptions ++ [("-V, --version", "Print version")])
  | .command v =>
    v.about :: usage (v.name :: "[OPTIONS]" :: v.arguments.map (·.1)) ++
      table "Arguments" v.arguments ++ table "Options" (v.options ++ commonOptions)
  | .help =>
    helpAbout :: usage ["help", "[COMMAND]..."] ++
      table "Arguments" [("[COMMAND]...", "Print help for the subcommand(s)")]

def helpText (t : Topic) : String := "\n".intercalate (helpLines t)

end SandboxHost.CommandLine

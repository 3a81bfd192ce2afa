import DeclSplit.CommandLine
import DeclSplit.Fault
import DeclSplit.Ignore.User
import DeclSplit.Index.Encoding
import DeclSplit.Settings.EnvFile
import DeclSplit.Settings.Source

/-!
The program as a whole: from its arguments, its variables and the disk to what it prints. Faults are
looked for in a fixed order: arguments, settings, options, the language assumed, the path.
-/
namespace DeclSplit.Program

/-- What the program finds around it. -/
structure Host where
  disk : Disk
  vars : Variables
  loader : Loader
  /-- What the parsers make of a source by a grammar. -/
  parse : Language → String → Option Node

/-- What a run of the program leaves behind. -/
structure Outcome where
  exit : Nat
  stdout : String := ""
  stderr : String := ""
deriving DecidableEq, Repr

/-! ### Settings -/

/-- Puts settings together from a file and the variables. -/
def settingsFrom (host : Host) (file : Option Registered) : Except Fault Settings :=
  let given : Registered := ⟨.ofVariables host.vars, false⟩
  (Settings.load (given :: file.toList)).mapError fun error =>
    ⟨"Invalid configuration", Fault.settingsCauses error⟩

/-- The settings of a run. A file that is named has to be there and to be right; the file of the user
counts only if it is. -/
def settings (host : Host) : Option String → Except Fault Settings
  | some path =>
    if host.disk.isFile path then
      settingsFrom host (some ⟨.ofFile (host.disk.read path), true⟩)
    else
      .error ⟨s!"Config file '{path}' does not exist", []⟩
  | none =>
    match host.vars.settingsFile?.filter host.disk.isFile with
    | some path => settingsFrom host (some ⟨.ofFile (host.disk.read path), false⟩)
    | none => settingsFrom host none

/-! ### Commands -/

/-- The written form of an answer, and a line feed. -/
def written (value : Json) (pretty : Bool) : String :=
  (if pretty then value.pretty else value.compact) ++ "\n"

/-- The languages with their extensions and kinds of declarations. -/
def languageTable : Json :=
  .arr <| Language.all.map fun language =>
    .obj
      [("id", language.toJson), ("extensions", .ofStrings language.profile.extensions),
        ("boundary_kinds", .ofStrings language.sortedKinds)]

/-- Cuts a file or the files of a directory. -/
def chunk (host : Host) (options : CommandLine.ChunkOptions) (settings : Settings) :
    Except Fault String := do
  let settings ← (options.apply settings).mapError fun error =>
    ⟨"Invalid command-line option", Fault.settingsCauses error⟩
  let service ← (Service.ofSettings host.loader host.parse settings.chunking).mapError fun error =>
    Fault.ofIndexError (.chunk error)
  let indexer : Indexer :=
    { disk := host.disk
      service := service
      settings := settings.scan
      userRules := Ignore.userRules host.disk host.vars }
  let entry ← (host.disk.entry options.path).mapError fun error =>
    ⟨s!"Cannot read '{options.path}'", [error.message]⟩
  if entry.isDirectory then
    let report ← (indexer.chunkDirectory options.path .empty).1.mapError Fault.ofIndexError
    return written report.toJson options.pretty
  else
    let chunks ← (indexer.chunkFile options.path .empty).1.mapError Fault.ofIndexError
    return written (.arr (chunks.map Chunk.toJson)) options.pretty

/-- Carries out a command, with the settings of a file if one is named. -/
def execute (host : Host) (config : Option String) (command : CommandLine.Command) :
    Except Fault String := do
  let settings ← settings host config
  match command with
  | .chunk options => chunk host options settings
  | .languages => return written languageTable true

/-! ### Texts -/

/-- The name and the version of the program. -/
def versionText : String := "codechunk 0.2.0\n"

/-- The lines of a help text. -/
def textOf (lines : List String) : String :=
  String.join (lines.map (· ++ "\n"))

/-- The help on a topic. -/
def helpText : CommandLine.Topic → String
  | .program => textOf
    ["codechunk - split source code into declaration-sized chunks",
      "",
      "Usage: codechunk [OPTIONS] <COMMAND>",
      "",
      "Commands:",
      "  chunk      Chunk a file or every file under a directory and print JSON",
      "  languages  List supported languages with their extensions and boundary kinds",
      "  help       Print this message or the help of the given subcommand(s)",
      "",
      "Options:",
      "  -c, --config <CONFIG>  Configuration file path (TOML format)",
      "  -h, --help             Print help",
      "  -V, --version          Print version"]
  | .chunk => textOf
    ["Chunk a file or every file under a directory and print JSON",
      "",
      "Usage: codechunk chunk [OPTIONS] <PATH>",
      "",
      "Arguments:",
      "  <PATH>  File or directory to chunk",
      "",
      "Options:",
      "  -c, --config <CONFIG>            Configuration file path (TOML format)",
      "  -l, --language <LANGUAGE>        Language used for files whose extension is not recognized",
      "  -k, --kinds <KINDS>              Only emit these node kinds (comma separated)",
      "  -j, --concurrency <CONCURRENCY>  Files chunked concurrently during a directory scan",
      "      --hidden                     Include hidden files and directories",
      "      --no-ignore                  Do not honor .gitignore and .ignore files",
      "      --pretty                     Pretty-print the JSON output",
      "  -h, --help                       Print help"]
  | .languages => textOf
    ["List supported languages with their extensions and boundary kinds",
      "",
      "Usage: codechunk languages [OPTIONS]",
      "",
      "Options:",
      "  -c, --config <CONFIG>  Configuration file path (TOML format)",
      "  -h, --help             Print help"]
  | .help => textOf
    ["Print this message or the help of the given subcommand(s)",
      "",
      "Usage: codechunk help [COMMAND]...",
      "",
      "Arguments:",
      "  [COMMAND]...  Print help for the subcommand(s)"]

/-- What is said of arguments that make no sense. -/
def misuseText : String := textOf
  ["error: invalid arguments",
    "",
    "Usage: codechunk [OPTIONS] <COMMAND>",
    "",
    "For more information, try '--help'."]

/-! ### The run -/

/-- The host with the variables of a file `.env` beside its own. -/
def withEnvFile (host : Host) : Host :=
  match EnvFile.find? host.disk with
  | some content => { host with vars := EnvFile.load host.vars content }
  | none => host

/-- Runs the program. -/
def run (host : Host) (args : List String) : Outcome :=
  let host := withEnvFile host
  match CommandLine.parse args with
  | .misuse => { exit := 2, stderr := misuseText }
  | .help topic => { exit := 0, stdout := helpText topic }
  | .version => { exit := 0, stdout := versionText }
  | .run config command =>
    match execute host config command with
    | .ok output => { exit := 0, stdout := output }
    | .error fault => { exit := 1, stderr := fault.render }

end DeclSplit.Program

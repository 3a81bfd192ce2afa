import DeclSplit.Settings.Validation
import DeclSplit.Text.Number

/-!
The arguments of the program. Options may stand before or after the path; their value follows as the
next argument or is attached to them. After `--` nothing is an option any more. Arguments are read
from left to right, and the first that is wrong or that asks for help decides.
-/
namespace DeclSplit.CommandLine

/-- What is asked of the command that cuts files. -/
structure ChunkOptions where
  path : String
  /-- The language of files that belong to none. -/
  language : Option String := none
  /-- The kinds that are kept. -/
  kinds : List String := []
  /-- How many files are worked on at a time. -/
  concurrency : Option Nat := none
  /-- Whether hidden files are included. -/
  hidden : Bool := false
  /-- Whether ignore files are passed over. -/
  noIgnore : Bool := false
  /-- Whether the output is on many lines. -/
  pretty : Bool := false
deriving DecidableEq, Repr

/-- What the program can do. -/
inductive Command where
  /-- Cut a file or the files of a directory. -/
  | chunk (options : ChunkOptions)
  /-- List the languages. -/
  | languages
deriving DecidableEq, Repr

/-- The commands that have a help text, and the program itself. -/
inductive Topic where
  | program
  | chunk
  | languages
  | help
deriving DecidableEq, Repr

/-- What the arguments ask for. -/
inductive Request where
  /-- Carry out a command, with the settings of a file if one is named. -/
  | run (config : Option String) (command : Command)
  | help (topic : Topic)
  | version
  /-- The arguments make no sense. -/
  | misuse
deriving DecidableEq, Repr

/-! ### Single arguments -/

/-- An argument by its form. -/
inductive Argument where
  /-- Two hyphens. -/
  | separator
  /-- Two hyphens and a name, with a value after an equals sign. -/
  | long (name : String) (value : Option String)
  /-- One hyphen and a letter, with what follows it. -/
  | short (letter : Char) (rest : List Char)
  /-- Everything else, a single hyphen included. -/
  | plain (text : String)
deriving DecidableEq, Repr

/-- The name and the value of a long option. -/
def longArgument (text : List Char) : Argument :=
  let name := String.ofList (text.takeWhile (· != '='))
  match text.dropWhile (· != '=') with
  | _ :: value => .long name (some (String.ofList value))
  | [] => .long name none

/-- The form of an argument. -/
def Argument.ofString (s : String) : Argument :=
  match s.toList with
  | ['-', '-'] => .separator
  | '-' :: '-' :: text => longArgument text
  | '-' :: letter :: rest => .short letter rest
  | _ => .plain s

/-- The value attached to a letter, after an equals sign or not. -/
def attached? : List Char → Option String
  | [] => none
  | '=' :: value => some (String.ofList value)
  | value => some (String.ofList value)

/-- Options that take a value. -/
inductive Valued where
  | config
  | language
  | kinds
  | concurrency
deriving DecidableEq, Repr

/-- Options that take none. -/
inductive Switch where
  | hidden
  | noIgnore
  | pretty
deriving DecidableEq, Repr

/-- What an argument means to a command. -/
inductive Meaning where
  | value (option : Valued) (attached : Option String)
  | switch (option : Switch)
  | help
  | version
  | separator
  | plain (text : String)
  | unknown
deriving DecidableEq, Repr

/-- What an argument means in front of the command. -/
def programMeaning : Argument → Meaning
  | .separator => .separator
  | .long "config" value => .value .config value
  | .long "help" none => .help
  | .long "version" none => .version
  | .short 'c' rest => .value .config (attached? rest)
  | .short 'h' _ => .help
  | .short 'V' _ => .version
  | .plain text => .plain text
  | _ => .unknown

/-- What an argument means to the command that lists languages. -/
def languagesMeaning : Argument → Meaning
  | .separator => .separator
  | .long "config" value => .value .config value
  | .long "help" none => .help
  | .short 'c' rest => .value .config (attached? rest)
  | .short 'h' _ => .help
  | .plain text => .plain text
  | _ => .unknown

/-- What an argument means to the command that cuts files. -/
def chunkMeaning : Argument → Meaning
  | .long "language" value => .value .language value
  | .long "kinds" value => .value .kinds value
  | .long "concurrency" value => .value .concurrency value
  | .long "hidden" none => .switch .hidden
  | .long "no-ignore" none => .switch .noIgnore
  | .long "pretty" none => .switch .pretty
  | .short 'l' rest => .value .language (attached? rest)
  | .short 'k' rest => .value .kinds (attached? rest)
  | .short 'j' rest => .value .concurrency (attached? rest)
  | argument => languagesMeaning argument

/-! ### All arguments of a command -/

/-- What was given to a command so far. -/
structure Given where
  config : Option String := none
  path : Option String := none
  language : Option String := none
  kinds : List String := []
  concurrency : Option Nat := none
  hidden : Bool := false
  noIgnore : Bool := false
  pretty : Bool := false

namespace Given

/-- Takes the value of an option. Only kinds may be given more than once, and lie between commas; the
name of a file may not be empty. -/
def setValue (g : Given) : Valued → String → Option Given
  | .config, value =>
    if g.config.isSome || value == "" then none else some { g with config := some value }
  | .language, value => if g.language.isSome then none else some { g with language := some value }
  | .kinds, value => some { g with kinds := g.kinds ++ Text.split ',' value }
  | .concurrency, value =>
    if g.concurrency.isSome then none
    else (Text.word? value).map fun n => { g with concurrency := some n }

/-- Takes an option without a value, which may be given once. -/
def setSwitch (g : Given) : Switch → Option Given
  | .hidden => if g.hidden then none else some { g with hidden := true }
  | .noIgnore => if g.noIgnore then none else some { g with noIgnore := true }
  | .pretty => if g.pretty then none else some { g with pretty := true }

/-- Takes the path, if there is to be one: it is given once and not empty. -/
def setPath (g : Given) (takesPath : Bool) (text : String) : Option Given :=
  if !takesPath || g.path.isSome || text == "" then none else some { g with path := some text }

end Given

/-- How the arguments of a command are read. -/
structure Level where
  meaning : Argument → Meaning
  takesPath : Bool
  topic : Topic

/-- The command that cuts files. -/
def chunkLevel : Level := ⟨chunkMeaning, true, .chunk⟩

/-- The command that lists languages. -/
def languagesLevel : Level := ⟨languagesMeaning, false, .languages⟩

/-- Goes on if there is something to go on with. -/
def orMisuse {α : Type} (given : Option α) (next : α → Except Request α) : Except Request α :=
  match given with
  | some g => next g
  | none => .error .misuse

/-- Takes all arguments for paths. -/
def readPaths (level : Level) (g : Given) : List String → Except Request Given
  | [] => .ok g
  | text :: rest => orMisuse (g.setPath level.takesPath text) fun g => readPaths level g rest

/-- Reads the arguments of a command, `pending` being an option whose value is next. -/
def readGiven (level : Level) (g : Given) (pending : Option Valued) :
    List String → Except Request Given
  | [] => if pending.isSome then .error .misuse else .ok g
  | text :: rest =>
    match pending, level.meaning (Argument.ofString text) with
    | some option, .plain value =>
      orMisuse (g.setValue option value) fun g => readGiven level g none rest
    | some _, _ => .error .misuse
    | none, .value option none => readGiven level g (some option) rest
    | none, .value option (some value) =>
      orMisuse (g.setValue option value) fun g => readGiven level g none rest
    | none, .switch option =>
      orMisuse (g.setSwitch option) fun g => readGiven level g none rest
    | none, .plain text =>
      orMisuse (g.setPath level.takesPath text) fun g => readGiven level g none rest
    | none, .help => .error (.help level.topic)
    | none, .separator => readPaths level g rest
    | none, .version => .error .misuse
    | none, .unknown => .error .misuse

/-- The command that cuts files, as it was given. -/
def chunkRequest (config : Option String) (g : Given) : Request :=
  match g.path with
  | none => .misuse
  | some path =>
    .run (g.config <|> config) <| .chunk
      { path, language := g.language, kinds := g.kinds, concurrency := g.concurrency,
        hidden := g.hidden, noIgnore := g.noIgnore, pretty := g.pretty }

/-- The request of a command with its arguments, `config` being named in front of it. -/
def commandRequest (config : Option String) (name : String) (args : List String) : Request :=
  match name with
  | "chunk" =>
    match readGiven chunkLevel {} none args with
    | .ok g => chunkRequest config g
    | .error request => request
  | "languages" =>
    match readGiven languagesLevel {} none args with
    | .ok g => .run (g.config <|> config) .languages
    | .error request => request
  | "help" =>
    match args with
    | [] => .help .program
    | ["chunk"] => .help .chunk
    | ["languages"] => .help .languages
    | ["help"] => .help .help
    | _ => .misuse
  | _ => .misuse

/-- Reads what stands in front of the command, `config` being named already and `pending` if the name
is next. -/
def readProgram (config : Option String) (pending : Bool) : List String → Request
  | [] => .misuse
  | text :: rest =>
    match pending, programMeaning (Argument.ofString text) with
    | true, .plain value =>
      if config.isSome || value == "" then .misuse else readProgram (some value) false rest
    | true, _ => .misuse
    | false, .value _ none => readProgram config true rest
    | false, .value _ (some value) =>
      if config.isSome || value == "" then .misuse else readProgram (some value) false rest
    | false, .plain name => commandRequest config name rest
    | false, .help => .help .program
    | false, .version => .version
    | false, _ => .misuse

/-- What arguments ask for. -/
def parse (args : List String) : Request :=
  readProgram none false args

/-! ### Settings -/

/-- The settings with those replaced that the options ask for. The result has to be valid. -/
def ChunkOptions.apply (options : ChunkOptions) (settings : Settings) :
    Except SettingsError Settings := do
  let settings : Settings :=
    { settings with
      chunking :=
        { defaultLanguage := options.language <|> settings.chunking.defaultLanguage
          kinds :=
            if options.kinds.isEmpty then settings.chunking.kinds
            else options.kinds.filterMap Text.trimmed? }
      scan :=
        { settings.scan with
          concurrency := options.concurrency.getD settings.scan.concurrency
          includeHidden := settings.scan.includeHidden || options.hidden
          respectIgnore := settings.scan.respectIgnore && !options.noIgnore } }
  settings.validate
  return settings

end DeclSplit.CommandLine

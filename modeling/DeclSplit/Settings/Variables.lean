import DeclSplit.Settings
import DeclSplit.Text.Blank
import DeclSplit.Text.Lowercase
import DeclSplit.Text.Number

/-!
Settings taken from variables. Each setting has a variable of its own. A variable that is not defined
leaves its setting as it was, and so does one for a number or a truth value that does not hold one.
-/
namespace DeclSplit

/-- The values of variables. -/
abbrev Variables := String → Option String

namespace Variables

/-- The value of a variable, blanks removed, when it can be read. -/
def parsed {α : Type} (vars : Variables) (read : String → Option α) (name : String) : Option α :=
  (vars name).bind fun value => read (Text.trim value)

end Variables

/-- A blank value takes the default language away. -/
def ChunkingSettings.override (s : ChunkingSettings) (vars : Variables) : ChunkingSettings where
  defaultLanguage :=
    match vars "CODECHUNK_CHUNKING_DEFAULT_LANGUAGE" with
    | some value => Text.trimmed? value
    | none => s.defaultLanguage
  kinds := ((vars "CODECHUNK_CHUNKING_KINDS").map Text.listItems).getD s.kinds

/-- Numbers and truth values that can be read replace the settings. -/
def ScanSettings.override (s : ScanSettings) (vars : Variables) : ScanSettings where
  concurrency := (vars.parsed Text.word? "CODECHUNK_SCAN_CONCURRENCY").getD s.concurrency
  respectIgnore := (vars.parsed Text.bool? "CODECHUNK_SCAN_RESPECT_GITIGNORE").getD s.respectIgnore
  includeHidden := (vars.parsed Text.bool? "CODECHUNK_SCAN_INCLUDE_HIDDEN").getD s.includeHidden
  followLinks := (vars.parsed Text.bool? "CODECHUNK_SCAN_FOLLOW_LINKS").getD s.followLinks
  maxFileBytes := (vars.parsed Text.word? "CODECHUNK_SCAN_MAX_FILE_BYTES").getD s.maxFileBytes

/-- The level is taken in lower case. -/
def LoggingSettings.override (s : LoggingSettings) (vars : Variables) : LoggingSettings where
  level := ((vars "CODECHUNK_LOG_LEVEL").map fun value => Text.lower (Text.trim value)).getD s.level
  json := (vars.parsed Text.bool? "CODECHUNK_LOG_JSON").getD s.json

/-- The settings with those replaced that variables are defined for. -/
def Settings.override (s : Settings) (vars : Variables) : Settings where
  chunking := s.chunking.override vars
  scan := s.scan.override vars
  logging := s.logging.override vars

end DeclSplit

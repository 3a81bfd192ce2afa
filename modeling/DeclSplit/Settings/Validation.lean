import DeclSplit.Settings
import DeclSplit.Text.AsciiCase
import DeclSplit.Text.Blank

/-!
What settings have to satisfy, and what is said of those that do not.
-/
namespace DeclSplit

/-- Why settings cannot be used. -/
inductive SettingsError where
  /-- A text that may not be blank is. -/
  | missingField (field : String)
  /-- A number is not between its bounds. -/
  | outOfRange (field : String) (value min max : Nat)
  /-- A text is none of those that are allowed. -/
  | invalidChoice (field value : String) (choices : List String)
  /-- A file cannot be read. -/
  | file (detail : String)
  /-- A file is not in the format of settings. -/
  | malformed
deriving DecidableEq, Repr

namespace SettingsError

/-- The text shown to the user. -/
def message : SettingsError → String
  | missingField field => s!"Missing required field: {field}"
  | outOfRange field value min max =>
    s!"Value {value} is out of range for {field} (expected {min}-{max})"
  | invalidChoice field value choices =>
    let expected := ", ".intercalate choices
    s!"Invalid value '{value}' for {field} (expected one of: {expected})"
  | file detail => s!"IO error: {detail}"
  | malformed => "TOML parsing error"

end SettingsError

namespace Validation

/-- A number has to lie between two bounds, both allowed. -/
def range (value min max : Nat) (field : String) : Except SettingsError Unit :=
  if min ≤ value ∧ value ≤ max then .ok () else .error (.outOfRange field value min max)

/-- A text may not be blank. -/
def nonEmpty (value field : String) : Except SettingsError Unit :=
  if Text.trim value = "" then .error (.missingField field) else .ok ()

/-- A text has to be one of several, apart from case and surrounding blanks. -/
def choice (value : String) (choices : List String) (field : String) : Except SettingsError Unit :=
  if choices.any (Text.equalIgnoringCase · (Text.trim value)) then
    .ok ()
  else
    .error (.invalidChoice field value choices)

end Validation

/-- The levels of logging. -/
def LoggingSettings.levels : List String := ["trace", "debug", "info", "warn", "error"]

/-- The default language, if there is one, and all kinds have to be there. -/
def ChunkingSettings.validate (s : ChunkingSettings) : Except SettingsError Unit := do
  if let some language := s.defaultLanguage then
    Validation.nonEmpty language "chunking.default_language"
  s.kinds.forM (Validation.nonEmpty · "chunking.kinds")

/-- Between 1 and 256 files at a time, of at most one gibibyte. -/
def ScanSettings.validate (s : ScanSettings) : Except SettingsError Unit := do
  Validation.range s.concurrency 1 256 "scan.concurrency"
  Validation.range s.maxFileBytes 1 (1024 * 1024 * 1024) "scan.max_file_bytes"

/-- The level has to be one of those there are. -/
def LoggingSettings.validate (s : LoggingSettings) : Except SettingsError Unit := do
  Validation.nonEmpty s.level "logging.level"
  Validation.choice s.level levels "logging.level"

/-- Every section has to be valid. The first fault is reported. -/
def Settings.validate (s : Settings) : Except SettingsError Unit := do
  s.chunking.validate
  s.scan.validate
  s.logging.validate

end DeclSplit

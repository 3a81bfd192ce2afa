import DeclSplit.File.Error
import DeclSplit.Settings.Encoding
import DeclSplit.Settings.Validation
import DeclSplit.Settings.Variables
import DeclSplit.Toml.Document

/-!
Settings put together from several sources. The sources are applied from the lowest priority to the
highest, those of equal priority in the order in which they were given.
-/
namespace DeclSplit

/-- Something that settings come from. It makes settings out of those that came before. -/
structure Source where
  name : String
  priority : Nat
  load : Settings → Except SettingsError Settings

namespace Source

/-- The settings that a file holds. -/
def readFile (file : Except FileError ByteArray) : Except SettingsError Settings :=
  match file with
  | .error error => .error (.file error.message)
  | .ok bytes =>
    match String.fromUTF8? bytes with
    | none => .error (.file FileError.notText.message)
    | some text =>
      match (Toml.parse? text).bind Settings.ofJson? with
      | some settings => .ok settings
      | none => .error .malformed

/-- A file. What it does not set has its default value, whatever came before. -/
def ofFile (file : Except FileError ByteArray) : Source where
  name := "toml_file"
  priority := 50
  load := fun _ => readFile file

/-- Variables, which replace single settings. -/
def ofVariables (vars : Variables) : Source where
  name := "environment"
  priority := 100
  load := fun base => .ok (base.override vars)

end Source

/-- A source, and whether its failure is fatal. Other failures are passed over. -/
structure Registered where
  source : Source
  required : Bool

namespace Settings

/-- The sources in the order in which they are applied. -/
def ordered (sources : List Registered) : List Registered :=
  sources.mergeSort fun a b => decide (a.source.priority ≤ b.source.priority)

/-- Applies a source to the settings that came before. -/
def apply (base : Settings) (r : Registered) : Except SettingsError Settings :=
  match r.source.load base with
  | .ok settings => .ok settings
  | .error error => if r.required then .error error else .ok base

/-- The settings of all sources together, which have to be valid. -/
def load (sources : List Registered) : Except SettingsError Settings := do
  let settings ← (ordered sources).foldlM apply {}
  settings.validate
  return settings

end Settings

end DeclSplit

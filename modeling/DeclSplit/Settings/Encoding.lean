import DeclSplit.Json
import DeclSplit.Settings

/-!
Settings as structured values. A section or setting that is missing when it is read has its default
value.
-/
namespace DeclSplit

namespace ChunkingSettings

/-- The value of the section. -/
def toJson (s : ChunkingSettings) : Json :=
  .obj [("default_language", .ofOption s.defaultLanguage), ("kinds", .ofStrings s.kinds)]

/-- The names of the settings, in order. -/
def memberNames : List String := ["default_language", "kinds"]

/-- The section of a value. -/
def ofJson? (value : Json) : Option ChunkingSettings := do
  let [language, kinds] ← value.members? memberNames | none
  let absent : ChunkingSettings := {}
  return {
    defaultLanguage := ← Json.withDefault absent.defaultLanguage Json.optionalString? language
    kinds := ← Json.withDefault absent.kinds Json.strings? kinds }

end ChunkingSettings

namespace ScanSettings

/-- The value of the section. -/
def toJson (s : ScanSettings) : Json :=
  .obj
    [("concurrency", .ofNat s.concurrency),
      ("respect_gitignore", .bool s.respectIgnore),
      ("include_hidden", .bool s.includeHidden),
      ("follow_links", .bool s.followLinks),
      ("max_file_bytes", .ofNat s.maxFileBytes)]

/-- The names of the settings, in order. -/
def memberNames : List String :=
  ["concurrency", "respect_gitignore", "include_hidden", "follow_links", "max_file_bytes"]

/-- The section of a value. -/
def ofJson? (value : Json) : Option ScanSettings := do
  let [concurrency, respect, hidden, follow, maxBytes] ← value.members? memberNames | none
  let absent : ScanSettings := {}
  return {
    concurrency := ← Json.withDefault absent.concurrency Json.word? concurrency
    respectIgnore := ← Json.withDefault absent.respectIgnore Json.bool? respect
    includeHidden := ← Json.withDefault absent.includeHidden Json.bool? hidden
    followLinks := ← Json.withDefault absent.followLinks Json.bool? follow
    maxFileBytes := ← Json.withDefault absent.maxFileBytes Json.word? maxBytes }

end ScanSettings

namespace LoggingSettings

/-- The value of the section. -/
def toJson (s : LoggingSettings) : Json :=
  .obj [("level", .str s.level), ("json", .bool s.json)]

/-- The names of the settings, in order. -/
def memberNames : List String := ["level", "json"]

/-- The section of a value. -/
def ofJson? (value : Json) : Option LoggingSettings := do
  let [level, json] ← value.members? memberNames | none
  let absent : LoggingSettings := {}
  return {
    level := ← Json.withDefault absent.level Json.string? level
    json := ← Json.withDefault absent.json Json.bool? json }

end LoggingSettings

namespace Settings

/-- The value of the settings. -/
def toJson (s : Settings) : Json :=
  .obj
    [("chunking", s.chunking.toJson), ("scan", s.scan.toJson), ("logging", s.logging.toJson)]

/-- The names of the sections, in order. -/
def memberNames : List String := ["chunking", "scan", "logging"]

/-- The settings of a value. -/
def ofJson? (value : Json) : Option Settings := do
  let [chunking, scan, logging] ← value.members? memberNames | none
  return {
    chunking := ← Json.withDefault {} ChunkingSettings.ofJson? chunking
    scan := ← Json.withDefault {} ScanSettings.ofJson? scan
    logging := ← Json.withDefault {} LoggingSettings.ofJson? logging }

end Settings

end DeclSplit

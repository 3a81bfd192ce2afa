import DeclSplit.Proofs.Json
import DeclSplit.Proofs.Settings.Setting
import DeclSplit.Settings.Encoding

/-!
Settings written as values and read again after sections or single settings were taken out and other members
put in. Whatever was taken out has its default value, on its own or with its whole section, and everything else
is as it was written.
-/

namespace DeclSplit

/-! ### Single settings -/

namespace Form

def toJson : (form : Form) → form.Value → Json
  | optionalText => Json.ofOption
  | texts => Json.ofStrings
  | number => Json.ofNat
  | flag => Json.bool
  | text => Json.str

def ofJson? : (form : Form) → Json → Option form.Value
  | optionalText => Json.optionalString?
  | texts => Json.strings?
  | number => Json.word?
  | flag => Json.bool?
  | text => Json.string?

def Fits : (form : Form) → form.Value → Prop
  | number => fun n => n < Text.wordLimit
  | _ => fun _ => True

theorem ofJson?_toJson (form : Form) (v : form.Value) (fits : form.Fits v) :
    form.ofJson? (form.toJson v) = some v := by
  cases form with
  | optionalText => cases v <;> rfl
  | texts => exact Json.strings?_eq_some_iff.mpr rfl
  | number => exact Json.word?_eq_some_iff.mpr ⟨rfl, fits⟩
  | flag => rfl
  | text => rfl

end Form

namespace Settings

variable {c : Settings} {form : Form}

def tabulate (value : ∀ {form : Form}, Setting form → form.Value) : Settings where
  chunking := { defaultLanguage := value .defaultLanguage, kinds := value .kinds }
  scan :=
    { concurrency := value .concurrency
      respectIgnore := value .respectIgnore
      includeHidden := value .includeHidden
      followLinks := value .followLinks
      maxFileBytes := value .maxFileBytes }
  logging := { level := value .level, json := value .json }

theorem get_tabulate (value : ∀ {form : Form}, Setting form → form.Value) (k : Setting form) :
    (tabulate value).get k = value k := by
  cases k <;> rfl

/-- The settings with the default for those that are gone. -/
def reset (c : Settings) (gone : ∀ {form : Form}, Setting form → Bool) : Settings :=
  tabulate fun k => if gone k then ({} : Settings).get k else c.get k

/-- All numbers fit into 64 bits. -/
def InWords (c : Settings) : Prop :=
  ∀ k : Setting .number, c.get k < Text.wordLimit

theorem InWords.fits (words : c.InWords) (k : Setting form) : form.Fits (c.get k) := by
  cases k with
  | concurrency => exact words .concurrency
  | maxFileBytes => exact words .maxFileBytes
  | _ => trivial

section Sections
variable {gone : String → Bool} {j : Json}

theorem read_setting (words : c.InWords) {names : List String} {before after : List (String × Json)}
    (edited : Json.Edited names gone (fun _ => Eq) before after) (k : Setting form) (known : k.key ∈ names)
    (written : before.lookup k.key = some (form.toJson (c.get k))) :
    Json.withDefault (({} : Settings).get k) form.ofJson? (after.lookup k.key) =
      some ((c.reset fun k => gone k.key).get k) := by
  rw [reset, get_tabulate]
  apply edited.read_member k.key known written
  rintro value rfl
  exact form.ofJson?_toJson (c.get k) (words.fits k)

theorem read_chunking (words : c.InWords)
    (edited : Json.EditedObject ChunkingSettings.memberNames gone (fun _ => Eq) c.chunking.toJson j) :
    ChunkingSettings.ofJson? j = some (c.reset fun k => gone k.key).chunking := by
  obtain ⟨before, after, written, rfl, edited⟩ := edited
  cases written
  have language : Json.withDefault none Json.optionalString? (after.lookup "default_language") = some _ :=
    read_setting words edited .defaultLanguage (by decide) rfl
  have kinds : Json.withDefault [] Json.strings? (after.lookup "kinds") = some _ :=
    read_setting words edited .kinds (by decide) rfl
  simp only [ChunkingSettings.ofJson?, Json.members?, ChunkingSettings.memberNames, List.map_cons, List.map_nil,
    Option.bind_eq_bind, Option.bind_some, language, kinds]
  rfl

theorem read_scan (words : c.InWords)
    (edited : Json.EditedObject ScanSettings.memberNames gone (fun _ => Eq) c.scan.toJson j) :
    ScanSettings.ofJson? j = some (c.reset fun k => gone k.key).scan := by
  obtain ⟨before, after, written, rfl, edited⟩ := edited
  cases written
  have concurrency : Json.withDefault 8 Json.word? (after.lookup "concurrency") = some _ :=
    read_setting words edited .concurrency (by decide) rfl
  have ignore : Json.withDefault true Json.bool? (after.lookup "respect_gitignore") = some _ :=
    read_setting words edited .respectIgnore (by decide) rfl
  have hidden : Json.withDefault false Json.bool? (after.lookup "include_hidden") = some _ :=
    read_setting words edited .includeHidden (by decide) rfl
  have links : Json.withDefault false Json.bool? (after.lookup "follow_links") = some _ :=
    read_setting words edited .followLinks (by decide) rfl
  have bytes : Json.withDefault (2 * 1024 * 1024) Json.word? (after.lookup "max_file_bytes") = some _ :=
    read_setting words edited .maxFileBytes (by decide) rfl
  simp only [ScanSettings.ofJson?, Json.members?, ScanSettings.memberNames, List.map_cons, List.map_nil,
    Option.bind_eq_bind, Option.bind_some, concurrency, ignore, hidden, links, bytes]
  rfl

theorem read_logging (words : c.InWords)
    (edited : Json.EditedObject LoggingSettings.memberNames gone (fun _ => Eq) c.logging.toJson j) :
    LoggingSettings.ofJson? j = some (c.reset fun k => gone k.key).logging := by
  obtain ⟨before, after, written, rfl, edited⟩ := edited
  cases written
  have level : Json.withDefault "info" Json.string? (after.lookup "level") = some _ :=
    read_setting words edited .level (by decide) rfl
  have json : Json.withDefault false Json.bool? (after.lookup "json") = some _ :=
    read_setting words edited .json (by decide) rfl
  simp only [LoggingSettings.ofJson?, Json.members?, LoggingSettings.memberNames, List.map_cons, List.map_nil,
    Option.bind_eq_bind, Option.bind_some, level, json]
  rfl

end Sections

/-! ### All settings -/

def namesIn : String → List String
  | "chunking" => ChunkingSettings.memberNames
  | "scan" => ScanSettings.memberNames
  | "logging" => LoggingSettings.memberNames
  | _ => []

/-- What the settings are written as, after the sections and settings under the paths in `gone` were taken out and
members were put in that are neither. -/
def EditedFrom (c : Settings) (gone : List String → Bool) (j : Json) : Prop :=
  Json.EditedObject memberNames (fun name => gone [name])
    (fun name => Json.EditedObject (namesIn name) (fun key => gone [name, key]) fun _ => Eq) c.toJson j

end Settings

/-- Whether a setting was taken out, by itself or with its section. -/
def Setting.isGone {form : Form} (k : Setting form) (gone : List String → Bool) : Bool :=
  gone [k.sectionKey] || gone [k.sectionKey, k.key]

namespace Settings

variable {c : Settings} {gone : List String → Bool} {j : Json}

/-- A section that was taken out has the defaults of all its settings. -/
theorem reset_sections :
    (c.reset fun k => k.isGone gone) =
      { chunking := if gone ["chunking"] then {} else (c.reset fun k => gone ["chunking", k.key]).chunking
        scan := if gone ["scan"] then {} else (c.reset fun k => gone ["scan", k.key]).scan
        logging := if gone ["logging"] then {} else (c.reset fun k => gone ["logging", k.key]).logging } := by
  simp only [reset, tabulate, Setting.isGone, Setting.sectionKey]
  congr 1
  · by_cases out : gone ["chunking"] = true <;> simp [out, get]
  · by_cases out : gone ["scan"] = true <;> simp [out, get]
  · by_cases out : gone ["logging"] = true <;> simp [out, get]

theorem ofJson?_edited (words : c.InWords) (edited : EditedFrom c gone j) :
    ofJson? j = some (c.reset fun k => k.isGone gone) := by
  obtain ⟨before, after, written, rfl, edited⟩ := edited
  cases written
  have chunking : Json.withDefault {} ChunkingSettings.ofJson? (after.lookup "chunking") = some _ :=
    edited.read_member "chunking" (by decide) rfl {} fun _ => read_chunking words
  have scan : Json.withDefault {} ScanSettings.ofJson? (after.lookup "scan") = some _ :=
    edited.read_member "scan" (by decide) rfl {} fun _ => read_scan words
  have logging : Json.withDefault {} LoggingSettings.ofJson? (after.lookup "logging") = some _ :=
    edited.read_member "logging" (by decide) rfl {} fun _ => read_logging words
  simp only [ofJson?, Json.members?, memberNames, List.map_cons, List.map_nil, Option.bind_eq_bind, Option.bind_some,
    chunking, scan, logging]
  rw [reset_sections]
  rfl

theorem editedFrom_toJson (c : Settings) : EditedFrom c (fun _ => false) c.toJson := by
  refine ⟨_, _, rfl, rfl, ?_⟩
  refine .kept rfl ?_ (.kept rfl ?_ (.kept rfl ?_ .nil))
  · exact ⟨_, _, rfl, rfl, Json.Edited.refl (fun _ _ => rfl) _⟩
  · exact ⟨_, _, rfl, rfl, Json.Edited.refl (fun _ _ => rfl) _⟩
  · exact ⟨_, _, rfl, rfl, Json.Edited.refl (fun _ _ => rfl) _⟩

/-- Settings are read again from what they are written as. If sections or settings are taken out of that first, and
members put in that are neither, the settings that were taken out have their defaults and all others are
what they were. -/
theorem defaults_where_taken_out {c : Settings} (words : c.InWords) :
    (∀ gone j, EditedFrom c gone j → ∃ r, ofJson? j = some r ∧
      ∀ {form : Form} (k : Setting form), r.get k = if k.isGone gone then ({} : Settings).get k else c.get k) ∧
    ofJson? c.toJson = some c := by
  constructor
  · intro gone j edited
    exact ⟨_, ofJson?_edited words edited, get_tabulate _⟩
  · rw [ofJson?_edited words c.editedFrom_toJson]
    exact congrArg some (ext_get fun k => get_tabulate _ k)

/-! ### A section and a setting taken out -/

def tuned : Settings where
  chunking := { defaultLanguage := some "go", kinds := ["method"] }
  scan := { concurrency := 4, followLinks := true }
  logging := { json := true }

/-- The section for directories and the list of kinds. -/
def scanAndKinds (path : List String) : Bool :=
  path == ["scan"] || path == ["chunking", "kinds"]

/-- What is left of `tuned`, with a version and a misspelt key. -/
def remaining : Json :=
  .obj [("version", .ofNat 2), ("chunking", .obj [("default_language", .str "go"), ("kind", .str "class")]),
    ("logging", .obj [("level", .str "info"), ("json", .bool true)])]

theorem remaining_editedFrom : EditedFrom tuned scanAndKinds remaining := by
  refine ⟨_, _, rfl, rfl, .putIn (by decide) (.kept (by decide) ?_ (.takenOut (by decide) (.kept (by decide) ?_ .nil)))⟩
  · exact ⟨_, _, rfl, rfl, .kept (by decide) rfl (.takenOut (by decide) (.putIn (by decide) .nil))⟩
  · exact ⟨_, _, rfl, rfl, .kept (by decide) rfl (.kept (by decide) rfl .nil)⟩

theorem tuned_in_words : tuned.InWords := by
  intro k
  cases k <;> decide

theorem remaining_read : tuned.InWords ∧ EditedFrom tuned scanAndKinds remaining ∧
    (∃ r, ofJson? remaining = some r ∧ r.get .defaultLanguage = some "go" ∧ r.get .kinds = [] ∧
      r.get .concurrency = 8 ∧ r.get .followLinks = false ∧ r.get .json = true) ∧
    ofJson? tuned.toJson = some tuned := by
  obtain ⟨edits, again⟩ := defaults_where_taken_out tuned_in_words
  obtain ⟨r, read, each⟩ := edits scanAndKinds remaining remaining_editedFrom
  exact ⟨tuned_in_words, remaining_editedFrom, ⟨r, read, each .defaultLanguage, each .kinds, each .concurrency,
    each .followLinks, each .json⟩, again⟩

end Settings

end DeclSplit

import DeclSplit.Settings

/-!
The settings one by one. A setting has a key in its section, a variable of its own and a form of value, and
settings are the same when they are the same one by one. So what holds of each setting is said once, for all
settings or for those of one form.
-/

namespace DeclSplit

inductive Form where
  | optionalText
  | texts
  | number
  | flag
  | text
deriving DecidableEq

abbrev Form.Value : Form → Type
  | optionalText => Option String
  | texts => List String
  | number => Nat
  | flag => Bool
  | text => String

/-- The settings, by the form of their values. -/
inductive Setting : Form → Type where
  | defaultLanguage : Setting .optionalText
  | kinds : Setting .texts
  | concurrency : Setting .number
  | respectIgnore : Setting .flag
  | includeHidden : Setting .flag
  | followLinks : Setting .flag
  | maxFileBytes : Setting .number
  | level : Setting .text
  | json : Setting .flag
deriving DecidableEq

namespace Setting

variable {form : Form}

def variableName : Setting form → String
  | defaultLanguage => "CODECHUNK_CHUNKING_DEFAULT_LANGUAGE"
  | kinds => "CODECHUNK_CHUNKING_KINDS"
  | concurrency => "CODECHUNK_SCAN_CONCURRENCY"
  | respectIgnore => "CODECHUNK_SCAN_RESPECT_GITIGNORE"
  | includeHidden => "CODECHUNK_SCAN_INCLUDE_HIDDEN"
  | followLinks => "CODECHUNK_SCAN_FOLLOW_LINKS"
  | maxFileBytes => "CODECHUNK_SCAN_MAX_FILE_BYTES"
  | level => "CODECHUNK_LOG_LEVEL"
  | json => "CODECHUNK_LOG_JSON"

def sectionKey : Setting form → String
  | defaultLanguage | kinds => "chunking"
  | concurrency | respectIgnore | includeHidden | followLinks | maxFileBytes => "scan"
  | level | json => "logging"

def key : Setting form → String
  | defaultLanguage => "default_language"
  | kinds => "kinds"
  | concurrency => "concurrency"
  | respectIgnore => "respect_gitignore"
  | includeHidden => "include_hidden"
  | followLinks => "follow_links"
  | maxFileBytes => "max_file_bytes"
  | level => "level"
  | json => "json"

theorem variableName_injective : Function.Injective fun k : (form : Form) × Setting form => k.2.variableName := by
  rintro ⟨_, k⟩ ⟨_, l⟩ same
  cases k <;> cases l <;> simp_all [variableName]

end Setting

namespace Settings

variable {form : Form}

def get (s : Settings) : Setting form → form.Value
  | .defaultLanguage => s.chunking.defaultLanguage
  | .kinds => s.chunking.kinds
  | .concurrency => s.scan.concurrency
  | .respectIgnore => s.scan.respectIgnore
  | .includeHidden => s.scan.includeHidden
  | .followLinks => s.scan.followLinks
  | .maxFileBytes => s.scan.maxFileBytes
  | .level => s.logging.level
  | .json => s.logging.json

theorem ext_get {s t : Settings} (same : ∀ {form : Form} (k : Setting form), s.get k = t.get k) : s = t := by
  obtain ⟨⟨language, kinds⟩, ⟨files, ignore, hidden, links, bytes⟩, ⟨level, json⟩⟩ := s
  obtain ⟨⟨language', kinds'⟩, ⟨files', ignore', hidden', links', bytes'⟩, ⟨level', json'⟩⟩ := t
  obtain rfl : language = language' := same .defaultLanguage
  obtain rfl : kinds = kinds' := same .kinds
  obtain rfl : files = files' := same .concurrency
  obtain rfl : ignore = ignore' := same .respectIgnore
  obtain rfl : hidden = hidden' := same .includeHidden
  obtain rfl : links = links' := same .followLinks
  obtain rfl : bytes = bytes' := same .maxFileBytes
  obtain rfl : level = level' := same .level
  obtain rfl : json = json' := same .json
  rfl

end Settings

end DeclSplit

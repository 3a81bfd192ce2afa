import DeclSplit.CommandLine
import DeclSplit.Proofs.Settings.Source
import DeclSplit.Proofs.Settings.Validation
import DeclSplit.Proofs.Text.Blank

/-!
Options on top of settings. Settings that come from sources are valid, and an option moves its own setting
only. So options fail for what they say themselves and never for what the settings were: a blank language
or a number of files out of bounds. The kinds that are given cannot fail, as the blank ones are left out.
-/

namespace DeclSplit.CommandLine.ChunkOptions

/-- `r` has what the options give, and the settings of `m` for everything else. -/
structure Overrides (o : ChunkOptions) (m r : Settings) : Prop where
  defaultLanguage : r.chunking.defaultLanguage = o.language.or m.chunking.defaultLanguage
  kinds : r.chunking.kinds = if o.kinds = [] then m.chunking.kinds else (o.kinds.map Text.trim).filter (· ≠ "")
  concurrency : r.scan.concurrency = o.concurrency.getD m.scan.concurrency
  includeHidden : r.scan.includeHidden = true ↔ m.scan.includeHidden = true ∨ o.hidden = true
  respectIgnore : r.scan.respectIgnore = true ↔ m.scan.respectIgnore = true ∧ o.noIgnore = false
  followLinks : r.scan.followLinks = m.scan.followLinks
  maxFileBytes : r.scan.maxFileBytes = m.scan.maxFileBytes
  logging : r.logging = m.logging

variable {o : ChunkOptions} {m r : Settings}

/-- What is applied has what the options give, and has to be valid. -/
theorem apply_eq (o : ChunkOptions) (m : Settings) :
    ∃ r, Overrides o m r ∧ o.apply m = (r.validate >>= fun _ => .ok r) := by
  refine ⟨_, ?_, rfl⟩
  constructor
  case defaultLanguage => cases o.language <;> rfl
  case kinds => simp only [List.isEmpty_iff, Text.filterMap_trimmed?]
  case concurrency => rfl
  case includeHidden => simp
  case respectIgnore => simp
  case followLinks => rfl
  case maxFileBytes => rfl
  case logging => rfl

theorem Overrides.valid_kinds (overrides : Overrides o m r) (valid : m.chunking.validate = .ok ()) :
    ∀ kind ∈ r.chunking.kinds, Text.trim kind ≠ "" := by
  intro kind member
  rw [overrides.kinds] at member
  split at member
  · exact (ChunkingSettings.validate_eq_ok_iff.mp valid).2 kind member
  · -- Kinds that are given are left with something after trimming, and trimming again takes nothing away.
    obtain ⟨given, left⟩ := List.mem_filter.mp member
    obtain ⟨text, -, rfl⟩ := List.mem_map.mp given
    rw [Text.trim_trim]
    exact of_decide_eq_true left

/-- On top of valid settings, only a blank language and a number of files out of bounds are refused. -/
theorem Overrides.validate_iff (overrides : Overrides o m r) (valid : m.validate = .ok ()) :
    r.validate = .ok () ↔ (∀ language ∈ o.language, Text.trim language ≠ "") ∧
      ∀ files ∈ o.concurrency, 1 ≤ files ∧ files ≤ 256 := by
  obtain ⟨chunking, scan, logging⟩ := Settings.validate_eq_ok_iff.mp valid
  have kinds := overrides.valid_kinds chunking
  obtain ⟨language, -⟩ := ChunkingSettings.validate_eq_ok_iff.mp chunking
  obtain ⟨files, size⟩ := ScanSettings.validate_eq_ok_iff.mp scan
  have ofLanguage : (∀ l ∈ r.chunking.defaultLanguage, Text.trim l ≠ "") ↔ ∀ l ∈ o.language, Text.trim l ≠ "" := by
    rw [overrides.defaultLanguage]
    cases o.language with
    | none => simpa using language
    | some given => exact Iff.rfl
  have ofFiles : (1 ≤ r.scan.concurrency ∧ r.scan.concurrency ≤ 256) ↔ ∀ n ∈ o.concurrency, 1 ≤ n ∧ n ≤ 256 := by
    rw [overrides.concurrency]
    cases o.concurrency with
    | none => simpa using files
    | some given => simp
  rw [Settings.validate_eq_ok_iff, overrides.logging, ChunkingSettings.validate_eq_ok_iff,
    ScanSettings.validate_eq_ok_iff, overrides.maxFileBytes, ofLanguage, ofFiles]
  constructor
  · rintro ⟨⟨given, -⟩, ⟨bounded, -⟩, -⟩
    exact ⟨given, bounded⟩
  · rintro ⟨given, bounded⟩
    exact ⟨⟨given, kinds⟩, ⟨bounded, size⟩, logging⟩

/-- Options come before all settings that sources give. They fail exactly if the language is given and blank
or the number of files is given and out of bounds; else the result is valid and has what the options give,
and the settings that were there for everything else. -/
theorem options_take_precedence (o : ChunkOptions) {sources : List Registered}
    (loaded : Settings.load sources = .ok m) :
    ((∃ error, o.apply m = .error error) ↔
        (∃ language, o.language = some language ∧ Text.trim language = "") ∨
          ∃ files, o.concurrency = some files ∧ ¬(1 ≤ files ∧ files ≤ 256)) ∧
      ∀ r, o.apply m = .ok r → r.validate = .ok () ∧ Overrides o m r := by
  obtain ⟨r, overrides, applied⟩ := apply_eq o m
  have accepted := overrides.validate_iff (Settings.validate_of_load loaded)
  rw [applied]
  constructor
  · have refused : (∃ error, (r.validate >>= fun _ => Except.ok r) = .error error) ↔ ¬r.validate = .ok () := by
      cases r.validate with
      | error error => simp [bind, Except.bind]
      | ok => simp [bind, Except.bind]
    rw [refused, accepted, Classical.not_and_iff_not_or_not]
    simp only [Option.mem_def, not_forall, ne_eq, not_not, exists_prop]
  · intro result ok
    obtain ⟨valid, same⟩ := Validation.andThen_eq_ok_iff.mp ok
    cases same
    exact ⟨valid, overrides⟩

/-! ### A file, a variable and options -/

/-- A variable for the kinds, and a file that looks at hidden entries. -/
def layers : List Registered :=
  [Registration.environment false, .file (.ok "[scan]\ninclude_hidden = true\n".toUTF8) true].map
    (·.registered fun name => if name = "CODECHUNK_CHUNKING_KINDS" then some "method" else none)

def layered : Settings where
  chunking.kinds := ["method"]
  scan.includeHidden := true

theorem load_layers : Settings.load layers = .ok layered := by
  unfold Settings.load layers
  rw [Settings.ordered_registered]
  decide +kernel

def given : ChunkOptions where
  path := "src"
  language := some "go"
  kinds := [" function ", " "]
  concurrency := some 4
  noIgnore := true

/-- The options replace the kinds of the variable and keep the hidden entries of the file; with too many files
at a time they are refused. -/
theorem layers_overridden : Settings.load layers = .ok layered ∧
    (∃ r, given.apply layered = .ok r ∧ r.validate = .ok () ∧ Overrides given layered r ∧
      r.chunking.kinds = ["function"] ∧ r.scan.includeHidden = true) ∧
    ∃ error, { given with concurrency := some 257 }.apply layered = .error error := by
  obtain ⟨r, applied⟩ : ∃ r, given.apply layered = .ok r := ⟨_, rfl⟩
  obtain ⟨valid, overrides⟩ := (options_take_precedence given load_layers).2 r applied
  refine ⟨load_layers, ⟨r, applied, valid, overrides, ?_, ?_⟩, ?_⟩
  · rw [overrides.kinds]
    decide +kernel
  · exact overrides.includeHidden.mpr (Or.inl rfl)
  · exact (options_take_precedence _ load_layers).1.mpr (Or.inr ⟨257, rfl, by decide⟩)

end DeclSplit.CommandLine.ChunkOptions

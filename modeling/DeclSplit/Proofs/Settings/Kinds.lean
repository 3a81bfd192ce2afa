import DeclSplit.Proofs.CommandLine
import DeclSplit.Proofs.Settings.Variables

/-!
Lists of kinds that are written in one text, for a variable or for an option. Both are read alike: items
between commas, without the blanks around them and without blank items. So what is read can never be refused,
and the section can only be invalid for what no variable replaces.
-/

namespace DeclSplit

theorem Settings.kinds_override (s : Settings) {vars : Variables} {value : String}
    (given : vars "CODECHUNK_CHUNKING_KINDS" = some value) :
    (s.override vars).chunking.kinds = Text.listItems value :=
  get_override_of_read (k := .kinds) given rfl

/-! ### Options -/

namespace CommandLine

theorem ofString_kinds (value : String) :
    Argument.ofString ("--kinds=" ++ value) = .long "kinds" (some value) := by
  have chars : ("--kinds=" ++ value).toList =
      '-' :: '-' :: 'k' :: 'i' :: 'n' :: 'd' :: 's' :: '=' :: value.toList := by
    rw [String.toList_append]
    rfl
  unfold Argument.ofString
  rw [chars]
  change Argument.long _ (some (String.ofList value.toList)) = _
  rw [String.ofList_toList]
  rfl

/-- The kinds of an option are what is between the commas of its value. -/
theorem parse_kinds {path : String} (plain : Argument.ofString path = .plain path) (filled : path ≠ "")
    (value : String) :
    parse ["chunk", path, "--kinds=" ++ value] =
      .run none (.chunk { path, kinds := Text.split ',' value }) := by
  have ofPath : ({} : Given).setPath true path = some { path := some path } := by
    simp [Given.setPath, filled]
  have read : readGiven chunkLevel {} none [path, "--kinds=" ++ value] =
      .ok { path := some path, kinds := Text.split ',' value } := by
    unfold readGiven
    rw [plain]
    change orMisuse (({} : Given).setPath true path) _ = _
    rw [ofPath]
    change readGiven chunkLevel { path := some path } none ["--kinds=" ++ value] = _
    unfold readGiven
    rw [ofString_kinds]
    rfl
  change commandRequest none "chunk" [path, "--kinds=" ++ value] = _
  simp only [commandRequest, read]
  rfl

theorem ChunkOptions.Overrides.kinds_eq {o : ChunkOptions} {m r : Settings} (overrides : Overrides o m r)
    {value : String} (split : o.kinds = Text.split ',' value) : r.chunking.kinds = Text.listItems value := by
  have given : Text.split ',' value ≠ [] := by
    rw [Text.split, Text.splitChars_eq_splitOn, ne_eq, List.map_eq_nil_iff]
    exact List.splitOn_ne_nil _ _
  rw [overrides.kinds, split, if_neg given, ← Text.filterMap_trimmed?]
  rfl

theorem ChunkOptions.kinds_of_apply {o : ChunkOptions} {m r : Settings} {value : String}
    (split : o.kinds = Text.split ',' value) (applied : o.apply m = .ok r) :
    r.chunking.kinds = Text.listItems value := by
  obtain ⟨r', overrides, applies⟩ := apply_eq o m
  rw [applies] at applied
  obtain ⟨-, same⟩ := Validation.andThen_eq_ok_iff.mp applied
  cases same
  exact overrides.kinds_eq split

/-- Options for nothing but kinds are never refused. -/
theorem ChunkOptions.apply_kinds (path : String) (kinds : List String) {m : Settings} (valid : m.validate = .ok ()) :
    ∃ r, ({ path, kinds } : ChunkOptions).apply m = .ok r := by
  obtain ⟨r, overrides, applies⟩ := apply_eq { path, kinds } m
  have accepted : r.validate = .ok () := (overrides.validate_iff valid).mpr (by simp)
  rw [applies, accepted]
  exact ⟨r, rfl⟩

end CommandLine

/-! ### Validity -/

theorem ChunkingSettings.validate_override_iff (s : ChunkingSettings) (vars : Variables) :
    (s.override vars).validate = .ok () ↔
      (vars "CODECHUNK_CHUNKING_DEFAULT_LANGUAGE" ≠ none ∨ ∀ language ∈ s.defaultLanguage, Text.trim language ≠ "") ∧
      (vars "CODECHUNK_CHUNKING_KINDS" ≠ none ∨ ∀ kind ∈ s.kinds, Text.trim kind ≠ "") := by
  rw [validate_eq_ok_iff]
  apply and_congr
  · cases given : vars "CODECHUNK_CHUNKING_DEFAULT_LANGUAGE" with
    | none => simp [override, given]
    | some value =>
      simp only [override, given, ne_eq, reduceCtorEq, not_false_eq_true, true_or, iff_true]
      exact fun language => Text.trim_ne_of_trimmed?
  · cases given : vars "CODECHUNK_CHUNKING_KINDS" with
    | none => simp [override, given]
    | some value =>
      simp only [override, given, Option.map_some, Option.getD_some, ne_eq, reduceCtorEq, not_false_eq_true, true_or,
        iff_true]
      intro kind member
      obtain ⟨item, -, left⟩ := List.mem_filterMap.mp member
      exact Text.trim_ne_of_trimmed? left

/-! ### Kinds in a text -/

namespace Settings
open CommandLine

/-- Kinds joined by commas are read as they are, with whatever blanks and blank items between them. A variable
and an option with the same value give the same kinds. What variables give is valid, so with them the
section is invalid only for a blank language or kind that it had and that no variable replaces. -/
theorem kinds_read_from_text :
    (∀ (s : Settings) (vars : Variables) (kinds items : List String),
      (∀ kind ∈ kinds, Text.Trimmed kind ∧ ',' ∉ kind.toList) → Text.Padded kinds items →
      vars "CODECHUNK_CHUNKING_KINDS" = some (",".intercalate items) → (s.override vars).chunking.kinds = kinds) ∧
    (∀ (value : String) (vars : Variables), vars "CODECHUNK_CHUNKING_KINDS" = some value →
      (∀ path, Argument.ofString path = .plain path → path ≠ "" →
        ∃ o, parse ["chunk", path, "--kinds=" ++ value] = .run none (.chunk o) ∧
          ∀ m : Settings, m.validate = .ok () →
            ∃ r, o.apply m = .ok r ∧ r.chunking.kinds = (m.override vars).chunking.kinds) ∧
      ∀ (o : ChunkOptions) (m r : Settings), o.kinds = Text.split ',' value → o.apply m = .ok r →
        r.chunking.kinds = (m.override vars).chunking.kinds) ∧
    ∀ (s : Settings) (vars : Variables), (s.override vars).chunking.validate = .ok () ↔
      (vars "CODECHUNK_CHUNKING_DEFAULT_LANGUAGE" ≠ none ∨
        ∀ language ∈ s.chunking.defaultLanguage, Text.trim language ≠ "") ∧
      (vars "CODECHUNK_CHUNKING_KINDS" ≠ none ∨ ∀ kind ∈ s.chunking.kinds, Text.trim kind ≠ "") := by
  refine ⟨?_, ?_, fun s vars => s.chunking.validate_override_iff vars⟩
  · intro s vars kinds items each padded given
    rw [s.kinds_override given]
    exact Text.listItems_of_padded padded (fun kind member => (each kind member).1) fun kind member =>
      (each kind member).2
  · intro value vars given
    have alike : ∀ (o : ChunkOptions) (m r : Settings), o.kinds = Text.split ',' value → o.apply m = .ok r →
        r.chunking.kinds = (m.override vars).chunking.kinds := by
      intro o m r split applied
      rw [ChunkOptions.kinds_of_apply split applied, m.kinds_override given]
    refine ⟨fun path plain filled => ⟨_, parse_kinds plain filled value, fun m valid => ?_⟩, alike⟩
    obtain ⟨r, applied⟩ := ChunkOptions.apply_kinds path (Text.split ',' value) valid
    exact ⟨r, applied, alike _ m r rfl applied⟩

/-- Two kinds between blanks, one of them an ideographic space, and blank items. -/
def spreadKinds : List String := [" ", "\t" ++ "function_item" ++ " ", "", "" ++ "struct_item" ++ "\u3000"]

def spreadOut : Variables := fun name =>
  if name = "CODECHUNK_CHUNKING_KINDS" then some (",".intercalate spreadKinds) else none

theorem spreadKinds_padded : Text.Padded ["function_item", "struct_item"] spreadKinds :=
  .blank (by decide) <| .text _ (by decide) (by decide) <| .blank (by decide) <|
    .text _ (by decide) (by decide) .nil

theorem spreadOut_read_alike :
    Text.Padded ["function_item", "struct_item"] spreadKinds ∧
    (({} : Settings).override spreadOut).chunking.kinds = ["function_item", "struct_item"] ∧
    (∃ o, parse ["chunk", "src", "--kinds=" ++ ",".intercalate spreadKinds] = .run none (.chunk o) ∧
      ∃ r, o.apply {} = .ok r ∧ r.chunking.kinds = ["function_item", "struct_item"]) ∧
    (({ chunking.kinds := [" "] } : Settings).override spreadOut).chunking.validate = .ok () := by
  obtain ⟨joined, options, validity⟩ := kinds_read_from_text
  have each : ∀ kind ∈ ["function_item", "struct_item"], Text.Trimmed kind ∧ ',' ∉ kind.toList := by
    intro kind member
    have left : Text.trimmed? kind = some kind ∧ ',' ∉ kind.toList := by
      revert kind
      decide
    exact ⟨Text.trimmed_of_trimmed? left.1, left.2⟩
  have read : (({} : Settings).override spreadOut).chunking.kinds = ["function_item", "struct_item"] :=
    joined {} spreadOut _ spreadKinds each spreadKinds_padded rfl
  obtain ⟨o, parsed, applies⟩ := (options _ spreadOut rfl).1 "src" (by decide) (by decide)
  obtain ⟨r, applied, alike⟩ := applies {} (by decide)
  refine ⟨spreadKinds_padded, read, ⟨o, parsed, r, applied, alike.trans read⟩, ?_⟩
  exact (validity _ spreadOut).mpr ⟨Or.inr (by simp), Or.inl (by simp [spreadOut])⟩

end Settings

end DeclSplit

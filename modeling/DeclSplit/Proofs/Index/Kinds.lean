import DeclSplit.Index
import DeclSplit.Proofs.Boundary.Hierarchy

/-!
Settings that list kinds. A service that is set up to keep some kinds filters the nodes as it walks, and this
is the same as a walk without a filter for the declarations of the language that are listed. A list without
entries stands for all declarations; of any other list it matters alone which declarations of the language are
on it.
-/

namespace DeclSplit

namespace Survey
variable {s t : Survey}

theorem boundaries_congr (language : t.language = s.language) (source : t.source = s.source)
    (keeps : ∀ d, t.keeps d = s.keeps d) (c : Cursor) : t.boundaries c = s.boundaries c := by
  have records (d : Cursor) (parents : List String) : t.record d parents = s.record d parents := by
    simp only [record, language, source]
  have same := boundaries_map (f := id) (g := id) (c := c) (fun d _ => keeps d) records (fun _ => rfl) (by simp)
    (by simp)
  rwa [List.map_id] at same

/-- The survey of the declarations of some kinds, all of which are kept. -/
def ofKinds (language : Language) (source : String) (kinds : List String) : Survey :=
  ⟨language, source, kinds, Filter.acceptAll⟩

end Survey

/-- The declarations of a language that are listed. -/
def Language.listed (language : Language) (kinds : List String) : List String :=
  language.declarationKinds.filter kinds.contains

theorem Language.listed_congr {language : Language} {kinds others : List String}
    (same : ∀ kind ∈ language.declarationKinds, kind ∈ kinds ↔ kind ∈ others) :
    language.listed kinds = language.listed others := by
  apply List.filter_congr
  intro kind member
  rw [Bool.eq_iff_iff, List.contains_iff_mem, List.contains_iff_mem]
  exact same kind member

namespace Service
variable {loader : Loader} {parse : Language → String → Option Node} {settings : ChunkingSettings} {service : Service}

theorem ofSettings_eq_ok (accepted : ofSettings loader parse settings = .ok service) :
    ∃ fallback, service = ⟨loader, parse,
      if settings.kinds.isEmpty then Filter.acceptAll else Filter.ofKinds settings.kinds, fallback⟩ := by
  obtain ⟨_ | name, kinds⟩ := settings
  · exact ⟨.strict, (Except.ok.inj accepted).symm⟩
  · simp only [ofSettings] at accepted
    cases known : Language.ofName name with
    | error error =>
      rw [known] at accepted
      cases accepted
    | ok language =>
      rw [known] at accepted
      exact ⟨.assume language, (Except.ok.inj accepted).symm⟩

theorem boundaries_of_listed (language : Language) (source : String) (kinds : List String) (c : Cursor) :
    (Survey.ofLanguage language source (Filter.ofKinds kinds)).boundaries c =
      (Survey.ofKinds language source (language.listed kinds)).boundaries c := by
  have both (kind : String) : (language.listed kinds).contains kind =
      (language.declarationKinds.contains kind && kinds.contains kind) := by
    rw [Bool.eq_iff_iff]
    simp [Language.listed]
  apply Survey.boundaries_congr
  case language => rfl
  case source => rfl
  case keeps =>
    intro d
    simp only [Survey.keeps, Survey.ofLanguage, Survey.ofKinds, Filter.ofKinds, Filter.acceptAll, both, Bool.and_assoc,
      Bool.and_true]

theorem extract_of_listed (accepted : ofSettings loader parse settings = .ok service) (listed : settings.kinds ≠ [])
    (source : String) (language : Language) (store : ParserStore) :
    service.extract source language store =
      ((service.tree source language (store.parser loader language).1).map fun root =>
        (Survey.ofKinds language source (language.listed settings.kinds)).boundaries (.ofRoot root),
          (store.parser loader language).2) := by
  obtain ⟨fallback, rfl⟩ := ofSettings_eq_ok accepted
  simp only [← boundaries_of_listed, extract, List.isEmpty_iff, listed, if_false]

/-- A service that was set up with a list of kinds finds the declarations that a walk without a filter finds
among the listed ones; one that was set up without a list finds all declarations. Two lists that agree on the
declarations of a language give the same there, whatever else is on them, in which order and how often. -/
theorem listed_kinds_restrict_table (accepted : ofSettings loader parse settings = .ok service) (language : Language)
    (source : String) (store : ParserStore) :
    (settings.kinds ≠ [] → (service.extract source language store).1 =
      (service.tree source language (store.parser loader language).1).map fun root =>
        (Survey.ofKinds language source (language.listed settings.kinds)).boundaries (.ofRoot root)) ∧
    (settings.kinds = [] → (service.extract source language store).1 =
      (service.tree source language (store.parser loader language).1).map fun root =>
        (Survey.ofKinds language source language.declarationKinds).boundaries (.ofRoot root)) ∧
    ∀ other otherService, ofSettings loader parse other = .ok otherService → settings.kinds ≠ [] → other.kinds ≠ [] →
      (∀ kind ∈ language.declarationKinds, kind ∈ settings.kinds ↔ kind ∈ other.kinds) →
      otherService.extract source language store = service.extract source language store := by
  refine ⟨fun listed => ?_, fun unlisted => ?_, fun other otherService otherAccepted listed otherListed same => ?_⟩
  · rw [extract_of_listed accepted listed]
  · obtain ⟨fallback, rfl⟩ := ofSettings_eq_ok accepted
    simp only [extract, unlisted, List.isEmpty_nil, if_true]
    rfl
  · rw [extract_of_listed otherAccepted otherListed, extract_of_listed accepted listed, Language.listed_congr same]
    obtain ⟨fallback, rfl⟩ := ofSettings_eq_ok accepted
    obtain ⟨otherFallback, rfl⟩ := ofSettings_eq_ok otherAccepted
    rfl

/-- Parsers that know `documentedSource` alone. -/
def parseDocumented (_ : Language) (source : String) : Option Node :=
  if source = documentedSource then some documentedTree else none

/-- Settings with a kind that is listed twice and one that is no declaration. -/
def methodSettings : ChunkingSettings := ⟨some "JS", ["method_definition", "widget", "method_definition"]⟩

def methodService : Service :=
  ⟨.bundled, parseDocumented, Filter.ofKinds methodSettings.kinds, .assume .javaScript⟩

theorem methodSettings_accepted : ofSettings .bundled parseDocumented methodSettings = .ok methodService := by
  have found : Language.ofName? "JS" = some .javaScript := by decide +kernel
  simp only [ofSettings, methodSettings, Language.ofName, found]
  rfl

theorem methodService_tree :
    methodService.tree documentedSource .javaScript (ParserStore.empty.parser .bundled .javaScript).1 =
      .ok documentedTree := rfl

theorem documented_methods_listed :
    ofSettings .bundled parseDocumented methodSettings = .ok methodService ∧
      (methodService.extract documentedSource .javaScript .empty).1 =
        .ok [⟨"method_definition", [], some "m", 24, 30, "m() \x7b\x7d", "", 2, 2⟩] ∧
      ∃ plain, ofSettings .bundled parseDocumented ⟨none, ["method_definition"]⟩ = .ok plain ∧
        plain.extract documentedSource .javaScript .empty =
          methodService.extract documentedSource .javaScript .empty := by
  obtain ⟨listed, -, same⟩ :=
    listed_kinds_restrict_table methodSettings_accepted .javaScript documentedSource .empty
  refine ⟨methodSettings_accepted, ?_, _, rfl, ?_⟩
  · rw [listed (by simp [methodSettings]), methodService_tree]
    simp only [Except.map, Survey.boundaries_eq_records]
    decide +kernel
  · refine same ⟨none, ["method_definition"]⟩ _ rfl (by simp [methodSettings]) (by simp) fun kind member => ?_
    have known : kind ≠ "widget" := by
      rintro rfl
      revert member
      decide +kernel
    simp [methodSettings, known]

end Service

end DeclSplit

import DeclSplit.Proofs.Index.Report
import Mathlib.Data.List.Flatten

/-!
Reports with and without a language for files that belong to none. Such a language takes nothing away: a file
whose extension belongs to a language gives the same with and without it. The files that are refused without
it are those of no language, and with it there is no file of no language any more.
-/

namespace DeclSplit

open ParserStore

namespace Indexer
variable {ix : Indexer} {store : ParserStore} {path : String} {l : Language} {found : Scan.Found}

/-- The same indexer with another policy for files that belong to no language. -/
def under (ix : Indexer) (policy : Fallback) : Indexer :=
  { ix with service := { ix.service with fallback := policy } }

/-! ### One file -/

theorem language_of_mapped (mapped : Language.ofPath? path = some l) (filePath : String) :
    ix.language path filePath = .ok l := by
  simp only [language, mapped]

theorem language_of_assume (ix : Indexer) (l : Language) (path filePath : String) :
    ∃ m, (ix.under (.assume l)).language path filePath = .ok m := by
  cases mapped : Language.ofPath? path with
  | some m => exact ⟨m, language_of_mapped mapped filePath⟩
  | none => exact ⟨l, by simp only [language, mapped, under]⟩

/-- The policy does not matter to a file whose extension belongs to a language. -/
theorem chunkFile_of_mapped (mapped : Language.ofPath? path = some l) (policy other : Fallback) :
    (ix.under policy).chunkFile path store = (ix.under other).chunkFile path store := by
  simp only [chunkFile, chunkAs, language_of_mapped mapped]
  rfl

theorem chunkFile_strict_of_unmapped (unmapped : Language.ofPath? path = none) :
    (ix.under .strict).chunkFile path store = (.error (.chunk (.unsupportedLanguage path)), store) := by
  simp only [chunkFile, chunkAs, language, unmapped, under]

theorem text_ne_unsupported {error : IndexError} (failed : ix.text path path = .error error) :
    error.kind ≠ .unsupported := by
  unfold text at failed
  split at failed
  · cases failed
    exact nofun
  · split at failed
    · cases failed
      exact nofun
    · split at failed
      · cases failed
        exact nofun
      · split at failed
        · cases failed
        · cases failed
          exact nofun

/-- A file that has a language fails for another reason, if it fails. -/
theorem kind_ne_unsupported {error : IndexError} (known : ix.language path path = .ok l)
    (intact : store.Intact ix.service.loader) (failed : (ix.chunkFile path store).1 = .error error) :
    error.kind ≠ .unsupported := by
  simp only [chunkFile, chunkAs, known] at failed
  cases read : ix.text path path with
  | error unread =>
    rw [read] at failed
    cases failed
    exact text_ne_unsupported read
  | ok source =>
    rw [read] at failed
    change ((ix.service.extract source l store).1.map _).mapError IndexError.chunk = .error error at failed
    cases extracted : (ix.service.extract source l store).1 with
    | ok records =>
      rw [extracted] at failed
      cases failed
    | error refused =>
      rw [extracted] at failed
      cases failed
      cases refused with
      | unsupportedLanguage name => exact absurd extracted (Service.extract_ne_unsupported intact source name l)
      | _ => exact nofun

/-! ### What a file adds to a report -/

theorem alone_of_mapped (mapped : Language.ofPath? found.path = some l) (policy other : Fallback) :
    (ix.under policy).chunksAlone store found = (ix.under other).chunksAlone store found ∧
      (ix.under policy).failureAlone? store found = (ix.under other).failureAlone? store found := by
  unfold chunksAlone failureAlone?
  rw [chunkFile_of_mapped mapped policy other]
  exact ⟨rfl, rfl⟩

theorem alone_strict_of_unmapped (unmapped : Language.ofPath? found.path = none) :
    (ix.under .strict).chunksAlone store found = [] ∧
      (ix.under .strict).failureAlone? store found =
        some ⟨found.relative, .unsupported, (ChunkError.unsupportedLanguage found.relative).message⟩ := by
  unfold chunksAlone failureAlone?
  rw [chunkFile_strict_of_unmapped unmapped]
  exact ⟨rfl, rfl⟩

theorem supported_of_failureAlone? {failure : Failure} (known : ix.language found.path found.path = .ok l)
    (intact : store.Intact ix.service.loader) (failed : ix.failureAlone? store found = some failure) :
    failure.kind ≠ .unsupported := by
  unfold failureAlone? at failed
  split at failed
  · cases failed
  · rename_i error refused
    cases failed
    exact kind_ne_unsupported known intact refused

end Indexer

/-- The report on files of which those of no language are refused, beside the one in which they are taken for
some language. -/
structure Report.RefusesUnmapped (files : List Scan.Found) (strict assumed : Report) : Prop where
  scanned : strict.filesScanned = assumed.filesScanned
  chunks : strict.chunks.Sublist assumed.chunks
  failures : (strict.failures.filter (·.kind ≠ .unsupported)).Sublist assumed.failures
  refused : (strict.failures.filter (·.kind = .unsupported)).map (·.path) =
    (files.filter fun found => Language.ofPath? found.path = none).map (·.relative)
  supported : ∀ failure ∈ assumed.failures, failure.kind ≠ .unsupported

namespace Indexer
variable {ix : Indexer} {store : ParserStore} {l : Language} {files : List Scan.Found} {strict assumed : Report}

theorem refusesUnmapped_of_merges (intact : store.Intact ix.service.loader)
    (merges : strict.Merges (ix.under .strict) store files)
    (others : assumed.Merges (ix.under (.assume l)) store files) : strict.RefusesUnmapped files assumed := by
  constructor
  case scanned => rw [merges.scanned, others.scanned]
  case chunks =>
    rw [merges.chunks, others.chunks]
    apply List.Sublist.flatMap_right
    intro found _
    cases mapped : Language.ofPath? found.path with
    | some m => rw [(alone_of_mapped mapped .strict (.assume l)).1]
    | none =>
      rw [(alone_strict_of_unmapped mapped).1]
      exact List.nil_sublist _
  case failures =>
    rw [merges.failures, others.failures, List.filter_filterMap, List.filterMap_eq_flatMap_toList,
      List.filterMap_eq_flatMap_toList]
    apply List.Sublist.flatMap_right
    intro found _
    cases mapped : Language.ofPath? found.path with
    | some m =>
      rw [(alone_of_mapped mapped .strict (.assume l)).2, Option.toList_filter]
      exact List.filter_sublist
    | none =>
      rw [(alone_strict_of_unmapped mapped).2]
      exact List.nil_sublist _
  case refused =>
    rw [merges.failures, List.filter_filterMap, List.map_filterMap, ← List.filterMap_eq_filter, List.map_filterMap]
    apply List.filterMap_congr
    intro found _
    cases mapped : Language.ofPath? found.path with
    | some m =>
      have known : (ix.under .strict).language found.path found.path = .ok m := language_of_mapped mapped _
      cases failed : (ix.under .strict).failureAlone? store found with
      | none => simp [Option.guard, mapped]
      | some failure =>
        have supported := supported_of_failureAlone? known intact failed
        simp [Option.guard, Option.filter, mapped, supported]
    | none =>
      rw [(alone_strict_of_unmapped mapped).2]
      simp [mapped]
  case supported =>
    intro failure member
    rw [others.failures] at member
    obtain ⟨found, -, failed⟩ := List.mem_filterMap.mp member
    obtain ⟨m, known⟩ := language_of_assume ix l found.path found.path
    exact supported_of_failureAlone? known intact failed

/-- The report on a directory under any policy, by what its files give by themselves. -/
theorem exists_report_under {other : ParserStore} {root : String} {entry : Entry} (policy : Fallback)
    (steady : ix.service.loader.Steady) (alike : Alike ix.service.loader store other)
    (stands : ix.disk.entry root = .ok entry) (directory : entry.isDirectory = true) :
    ∃ report, ((ix.under policy).chunkDirectory root store).1 = .ok report ∧
      report.Merges (ix.under policy) other (ix.scan root) := by
  -- The policy shows neither on the disk nor in the loader.
  have standsUnder : (ix.under policy).disk.entry root = .ok entry := stands
  have steadyUnder : (ix.under policy).service.loader.Steady := steady
  exact ⟨_, chunkDirectory_fst standsUnder directory store, (reportOn_merges steadyUnder alike _).1⟩

/-- A language for files of no language touches these files alone. With and without it the same files are found
in a directory, whatever parsers were asked for before, and each file whose extension belongs to a language adds
the same chunks or the same failure. So without it nothing is in the report that is not there with it, but for
the refusals, and refused are exactly the files of no language, all of which are tried with it. -/
theorem fallback_touches_unmapped_files (ix : Indexer) (steady : ix.service.loader.Steady) {store other : ParserStore}
    (alike : Alike ix.service.loader store other) (root : String) {entry : Entry}
    (stands : ix.disk.entry root = .ok entry) (directory : entry.isDirectory = true) (l : Language) :
    (ix.under .strict).scan root = ix.scan root ∧ (ix.under (.assume l)).scan root = ix.scan root ∧
    (∀ found ∈ ix.scan root, ∀ m, Language.ofPath? found.path = some m →
      (ix.under .strict).chunksAlone other found = (ix.under (.assume l)).chunksAlone other found ∧
      (ix.under .strict).failureAlone? other found = (ix.under (.assume l)).failureAlone? other found) ∧
    ∃ strict assumed,
      ((ix.under .strict).chunkDirectory root store).1 = .ok strict ∧
      ((ix.under (.assume l)).chunkDirectory root other).1 = .ok assumed ∧
      strict.Merges (ix.under .strict) other (ix.scan root) ∧
      assumed.Merges (ix.under (.assume l)) other (ix.scan root) ∧
      strict.RefusesUnmapped (ix.scan root) assumed := by
  obtain ⟨strict, given, merges⟩ := exists_report_under .strict steady alike stands directory
  obtain ⟨assumed, otherGiven, others⟩ :=
    exists_report_under (.assume l) steady (.refl alike.other_intact) stands directory
  exact ⟨rfl, rfl, fun found _ m mapped => alone_of_mapped mapped .strict (.assume l), strict, assumed, given,
    otherGiven, merges, others, refusesUnmapped_of_merges alike.other_intact merges others⟩

/-- The text that was refused is now tried as a source, while the source gives what it gave. -/
theorem mixed_assuming_javaScript : ∃ strict assumed,
    ((mixed.under .strict).chunkDirectory "project" .empty).1 = .ok strict ∧
      ((mixed.under (.assume .javaScript)).chunkDirectory "project" .empty).1 = .ok assumed ∧
      (strict.failures.filter (·.kind = .unsupported)).map (·.path) = ["notes.txt"] ∧
      (∀ failure ∈ assumed.failures, failure.kind ≠ .unsupported) ∧
      strict.chunks.Sublist assumed.chunks ∧ strict.filesScanned = assumed.filesScanned := by
  have stands : mixed.disk.entry "project" = .ok (.directory _) :=
    congrArg (Except.map Prod.snd) mixed_resolve
  obtain ⟨-, -, -, strict, assumed, given, otherGiven, -, -, refuses⟩ :=
    fallback_touches_unmapped_files mixed (fun _ _ => rfl) (.refl (intact_empty _)) "project" stands rfl .javaScript
  refine ⟨strict, assumed, given, otherGiven, ?_, refuses.supported, refuses.chunks, refuses.scanned⟩
  rw [refuses.refused, mixed_scan]
  decide +kernel

end Indexer

end DeclSplit

import DeclSplit.Index
import DeclSplit.Proofs.Chunk
import DeclSplit.Proofs.Scan
import DeclSplit.Proofs.Service
import Mathlib.Data.List.Induction

/-!
Reports on directories. All files of a directory share one store of parsers, and still each of them
gives what it gives by itself: the report on files is put together from the answers for single files,
in their order, and only the path under which a file is shown differs.
-/

namespace DeclSplit

open ParserStore

/-- A chunk of a file that is shown under another path. -/
def Chunk.shownAs (filePath : String) (chunk : Chunk) : Chunk :=
  { chunk with filePath := some filePath }

/-- The error of a file that is shown under another path. -/
def IndexError.shownAs (filePath : String) : IndexError → IndexError
  | .io _ detail => .io filePath detail
  | .binary _ => .binary filePath
  | .tooLarge _ size limit => .tooLarge filePath size limit
  | .chunk (.unsupportedLanguage _) => .chunk (.unsupportedLanguage filePath)
  | error => error

@[simp] theorem IndexError.kind_shownAs (filePath : String) (error : IndexError) :
    (error.shownAs filePath).kind = error.kind := by
  unfold shownAs
  split <;> rfl

theorem Chunk.ofBoundaries_shownAs (source : String) (l : Language) (path filePath : String)
    (bs : List Boundary) :
    ofBoundaries source l (some filePath) bs = (ofBoundaries source l (some path) bs).map (shownAs filePath) := by
  rw [ofBoundaries, ofBoundaries, List.map_map]
  rfl

namespace Indexer

/-- The chunks that a file gives by itself, shown under its path in the directory. -/
def chunksAlone (ix : Indexer) (store : ParserStore) (found : Scan.Found) : List Chunk :=
  match (ix.chunkFile found.path store).1 with
  | .ok chunks => chunks.map (Chunk.shownAs found.relative)
  | .error _ => []

/-- The failure of a file by itself, shown under its path in the directory. -/
def failureAlone? (ix : Indexer) (store : ParserStore) (found : Scan.Found) : Option Failure :=
  match (ix.chunkFile found.path store).1 with
  | .ok _ => none
  | .error error => some ⟨found.relative, error.kind, (error.shownAs found.relative).message⟩

end Indexer

/-- A report that is put together from what files give by themselves, each with the same store, in their
order. -/
structure Report.Merges (ix : Indexer) (store : ParserStore) (files : List Scan.Found) (report : Report) :
    Prop where
  chunks : report.chunks = files.flatMap (ix.chunksAlone store)
  failures : report.failures = files.filterMap (ix.failureAlone? store)
  scanned : report.filesScanned = files.length
  counted : report.filesScanned = report.filesChunked + report.failures.length

namespace Indexer
variable {ix : Indexer} {store alone : ParserStore}

/-! ### The path under which a file is shown -/

/-- What comes of a file, shown under another path. -/
def shownAs (filePath : String) (result : Except IndexError (List Chunk)) : Except IndexError (List Chunk) :=
  (result.map (List.map (Chunk.shownAs filePath))).mapError (IndexError.shownAs filePath)

theorem language_shownAs (ix : Indexer) (path filePath : String) :
    ix.language path filePath = (ix.language path path).mapError (IndexError.shownAs filePath) := by
  unfold language
  split <;> rfl

theorem text_shownAs (ix : Indexer) (path filePath : String) :
    ix.text path filePath = (ix.text path path).mapError (IndexError.shownAs filePath) := by
  unfold text
  split
  · rfl
  · split
    · rfl
    · split
      · rfl
      · split <;> rfl

theorem service_chunkFile_shownAs {s : Service} (intact : store.Intact s.loader) (source : String)
    (l : Language) (path filePath : String) :
    (s.chunkFile source l (some filePath) store).1.mapError IndexError.chunk =
      shownAs filePath ((s.chunkFile source l (some path) store).1.mapError IndexError.chunk) := by
  have cut (filePath : String) : (s.chunkFile source l (some filePath) store).1 =
      (s.extract source l store).1.map (Chunk.ofBoundaries source l (some filePath)) := rfl
  rw [cut, cut]
  cases extracted : (s.extract source l store).1 with
  | ok bs => exact congrArg Except.ok (Chunk.ofBoundaries_shownAs source l path filePath bs)
  | error error =>
    -- An error about an unknown language would be shown under the path, and there is none here.
    have shown : (IndexError.chunk error).shownAs filePath = .chunk error := by
      cases error with
      | unsupportedLanguage name =>
        exact absurd extracted (Service.extract_ne_unsupported intact source name l)
      | _ => rfl
    exact congrArg Except.error shown.symm

/-- What comes of a file is what comes of it by itself, shown under its path. -/
theorem chunkAs_fst (steady : ix.service.loader.Steady) (alike : Alike ix.service.loader store alone)
    (path filePath : String) :
    (ix.chunkAs path filePath store).1 = shownAs filePath (ix.chunkFile path alone).1 := by
  unfold chunkFile chunkAs
  rw [language_shownAs, text_shownAs]
  cases ix.language path path with
  | error error => rfl
  | ok l =>
    cases ix.text path path with
    | error error => rfl
    | ok source =>
      have same : (ix.service.chunkFile source l (some filePath) store).1 =
          (ix.service.chunkFile source l (some filePath) alone).1 :=
        congrArg (Except.map _) (Service.extract_of_alike steady alike source l)
      refine (congrArg (Except.mapError IndexError.chunk) same).trans ?_
      exact service_chunkFile_shownAs alike.other_intact source l path filePath

/-! ### Files one after the other -/

theorem alike_chunkAs (alike : Alike ix.service.loader store alone) (path filePath : String) :
    Alike ix.service.loader (ix.chunkAs path filePath store).2 alone := by
  unfold chunkAs
  split
  · exact alike
  · exact alike
  · rename_i l source _ _
    exact alike.request l

theorem reportOn_concat (ix : Indexer) (files : List Scan.Found) (found : Scan.Found) (store : ParserStore) :
    ix.reportOn (files ++ [found]) store =
      ((ix.reportOn files store).1.add found.relative
          (ix.chunkAs found.path found.relative (ix.reportOn files store).2).1,
        (ix.chunkAs found.path found.relative (ix.reportOn files store).2).2) := by
  unfold reportOn
  rw [List.foldl_append]
  rfl

/-- One more file adds what it gives by itself. -/
theorem merges_add {files : List Scan.Found} {report : Report} (merges : report.Merges ix alone files)
    (found : Scan.Found) :
    (report.add found.relative (shownAs found.relative (ix.chunkFile found.path alone).1)).Merges ix alone
      (files ++ [found]) := by
  obtain ⟨chunks, failures, scanned, counted⟩ := merges
  cases result : (ix.chunkFile found.path alone).1 with
  | ok cut =>
    have given : ix.chunksAlone alone found = cut.map (Chunk.shownAs found.relative) := by
      simp [chunksAlone, result]
    have succeeded : ix.failureAlone? alone found = none := by simp [failureAlone?, result]
    constructor <;> simp only [shownAs, Except.map, Except.mapError, Report.add]
    · simp [chunks, given]
    · simp [failures, succeeded]
    · simp [scanned]
    · omega
  | error error =>
    have given : ix.chunksAlone alone found = [] := by simp [chunksAlone, result]
    have failed : ix.failureAlone? alone found =
        some ⟨found.relative, error.kind, (error.shownAs found.relative).message⟩ := by
      simp [failureAlone?, result]
    constructor <;> simp only [shownAs, Except.map, Except.mapError, Report.add]
    · simp [chunks, given]
    · simp [failures, failed]
    · simp [scanned]
    · rw [List.length_append, List.length_singleton]
      omega

/-- Files that share a store give what each of them gives by itself. -/
theorem reportOn_merges (steady : ix.service.loader.Steady) (alike : Alike ix.service.loader store alone)
    (files : List Scan.Found) :
    (ix.reportOn files store).1.Merges ix alone files ∧
      Alike ix.service.loader (ix.reportOn files store).2 alone := by
  induction files using List.reverseRecOn with
  | nil => exact ⟨⟨rfl, rfl, rfl, rfl⟩, alike⟩
  | append_singleton files found ih =>
    obtain ⟨merges, kept⟩ := ih
    rw [reportOn_concat]
    refine ⟨?_, alike_chunkAs kept _ _⟩
    rw [chunkAs_fst steady kept]
    exact merges_add merges found

theorem chunkDirectory_fst {root : String} {entry : Entry} (stands : ix.disk.entry root = .ok entry)
    (directory : entry.isDirectory = true) (store : ParserStore) :
    (ix.chunkDirectory root store).1 = .ok (ix.reportOn (ix.scan root) store).1 := by
  unfold chunkDirectory
  rw [stands]
  simp only [directory, if_true]

/-- A directory with `decoratedSource` and a text in no language. -/
def mixed : Indexer where
  disk.root := .directory [("project", .directory
    [("decorated.js", .file decoratedSource.toUTF8), ("notes.txt", .file "Nothing yet.".toUTF8)])]
  disk.workingDirectory := []
  service := .decorating
  settings.respectIgnore := false

theorem mixed_resolve : mixed.disk.resolve "project" = .ok (["project"], .directory
    [("decorated.js", .file decoratedSource.toUTF8), ("notes.txt", .file "Nothing yet.".toUTF8)]) := by
  have parts : Text.split '/' "project" = ["project"] := by decide +kernel
  have short : ¬Disk.maxName < "project".utf8ByteSize := by decide +kernel
  unfold Disk.resolve
  rw [if_neg (by decide +kernel), if_neg (by decide +kernel), if_neg (by decide +kernel), parts]
  simp [Disk.follow, mixed, Entry.at?, Entry.isDirectory, Entry.child?, Path.isAbsolute, short]

theorem mixed_scan : mixed.scan "project" =
    [⟨"project/decorated.js", ["decorated.js"]⟩, ⟨"project/notes.txt", ["notes.txt"]⟩] := by
  unfold scan Scan.files
  rw [if_neg (by decide +kernel), mixed_resolve]
  simp only [mixed, Scan.visitAll, Scan.visit, Scan.inOrder]
  rw [List.mergeSort_of_pairwise (by decide +kernel)]
  decide +kernel

end Indexer

end DeclSplit

import DeclSplit.Index.Error
import DeclSplit.Scan
import DeclSplit.Service
import DeclSplit.Text.Encoding

/-!
Chunks of files and of whole directories. A file that gives no chunks does not stop the work on a
directory: it is put down as a failure, and the others are not touched by it.
-/
namespace DeclSplit

/-- The service that the settings ask for. -/
def Service.ofSettings (loader : Loader) (parse : Language → String → Option Node)
    (settings : ChunkingSettings) : Except ChunkError Service := do
  let fallback ←
    match settings.defaultLanguage with
    | some name => (Language.ofName name).map Fallback.assume
    | none => .ok .strict
  let filter := if settings.kinds.isEmpty then Filter.acceptAll else Filter.ofKinds settings.kinds
  return { loader, parse, filter, fallback }

/-- A file without chunks in a report. -/
structure Failure where
  path : String
  kind : FailureKind
  message : String
deriving DecidableEq, Repr

/-- What came of the files of a directory. -/
structure Report where
  filesScanned : Nat := 0
  filesChunked : Nat := 0
  chunks : List Chunk := []
  failures : List Failure := []
deriving DecidableEq, Repr

/-- Puts down what came of a file. -/
def Report.add (report : Report) (path : String) : Except IndexError (List Chunk) → Report
  | .ok chunks =>
    { report with
      filesScanned := report.filesScanned + 1
      filesChunked := report.filesChunked + 1
      chunks := report.chunks ++ chunks }
  | .error error =>
    { report with
      filesScanned := report.filesScanned + 1
      failures := report.failures ++ [⟨path, error.kind, error.message⟩] }

/-- How files are read and cut. -/
structure Indexer where
  disk : Disk
  service : Service
  settings : ScanSettings := {}
  /-- The ignore rules of the user. -/
  userRules : List Ignore.Rule := []

namespace Indexer

/-- The language of a file, shown as `filePath`: that of its extension, else the one assumed for all
others. -/
def language (ix : Indexer) (path filePath : String) : Except IndexError Language :=
  match Language.ofPath? path, ix.service.fallback with
  | some language, _ => .ok language
  | none, .assume language => .ok language
  | none, .strict => .error (.chunk (.unsupportedLanguage filePath))

/-- The text of a file, shown as `filePath`. Its size is looked at before it is read. -/
def text (ix : Indexer) (path filePath : String) : Except IndexError String :=
  match ix.disk.entry path with
  | .error error => .error (.io filePath error.message)
  | .ok entry =>
    if ix.settings.maxFileBytes < entry.size then
      .error (.tooLarge filePath entry.size ix.settings.maxFileBytes)
    else
      match Disk.contentOf entry with
      | .error error => .error (.io filePath error.message)
      | .ok bytes =>
        match Text.decode bytes.data.toList with
        | some decoded => .ok decoded.text
        | none => .error (.binary filePath)

/-- The chunks of a file, shown as `filePath`. -/
def chunkAs (ix : Indexer) (path filePath : String) (store : ParserStore) :
    Except IndexError (List Chunk) × ParserStore :=
  match ix.language path filePath, ix.text path filePath with
  | .error error, _ => (.error error, store)
  | .ok _, .error error => (.error error, store)
  | .ok language, .ok source =>
    let (result, store) := ix.service.chunkFile source language (some filePath) store
    (result.mapError .chunk, store)

/-- The chunks of a file, shown by its path. -/
def chunkFile (ix : Indexer) (path : String) (store : ParserStore) :
    Except IndexError (List Chunk) × ParserStore :=
  ix.chunkAs path path store

/-- The files under a root. -/
def scan (ix : Indexer) (root : String) : List Scan.Found :=
  Scan.files ix.disk ix.settings ix.userRules root

/-- The report on files, each shown by its path from where the scan started. -/
def reportOn (ix : Indexer) (files : List Scan.Found) (store : ParserStore) : Report × ParserStore :=
  files.foldl
    (fun (report, store) found =>
      let (result, store) := ix.chunkAs found.path found.relative store
      (report.add found.relative result, store))
    ({}, store)

/-- The report on the directory at a path. -/
def chunkDirectory (ix : Indexer) (root : String) (store : ParserStore) :
    Except IndexError Report × ParserStore :=
  match ix.disk.entry root with
  | .error error => (.error (.io root error.message), store)
  | .ok entry =>
    if entry.isDirectory then
      let (report, store) := ix.reportOn (ix.scan root) store
      (.ok report, store)
    else
      (.error (.notADirectory root), store)

end Indexer

end DeclSplit

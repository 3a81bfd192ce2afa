import DeclSplit.Error
import DeclSplit.File.Error
import DeclSplit.Settings.Validation

/-!
Why a file or a directory gave no chunks.
-/
namespace DeclSplit

/-- What a failed file is counted under in a report. -/
inductive FailureKind where
  | unsupported
  | binary
  | tooLarge
  | io
  | noParser
  | grammarUnavailable
  | grammarBinding
  | parseFailed
  | internal
deriving DecidableEq, Repr

namespace FailureKind

/-- Every kind of failure. -/
def all : List FailureKind :=
  [unsupported, binary, tooLarge, io, noParser, grammarUnavailable, grammarBinding, parseFailed,
    internal]

/-- The name of a kind in a report. -/
def name : FailureKind → String
  | unsupported => "unsupported"
  | binary => "binary"
  | tooLarge => "too_large"
  | io => "io"
  | noParser => "no_parser"
  | grammarUnavailable => "grammar_unavailable"
  | grammarBinding => "grammar_binding"
  | parseFailed => "parse_failed"
  | internal => "internal"

/-- The kind of a name. -/
def ofName? (s : String) : Option FailureKind :=
  all.find? (·.name == s)

end FailureKind

/-- A cause for which a file or a directory gives no chunks. -/
inductive IndexError where
  /-- The file system refused. -/
  | io (path detail : String)
  /-- The bytes of the file are no text. -/
  | binary (path : String)
  /-- The file has more bytes than are read. -/
  | tooLarge (path : String) (size limit : Nat)
  /-- Something else stands where a directory is expected. -/
  | notADirectory (path : String)
  /-- The text could not be cut. -/
  | chunk (error : ChunkError)
  /-- The settings cannot be used. -/
  | settings (error : SettingsError)
  /-- The work was broken off. -/
  | task (detail : String)
deriving DecidableEq, Repr

namespace IndexError

/-- The text shown to the user. -/
def message : IndexError → String
  | io path detail => s!"IO error for {path}: {detail}"
  | binary path => s!"Binary or undecodable file: {path}"
  | tooLarge path size limit => s!"File {path} is {size} bytes, over the {limit} byte limit"
  | notADirectory path => s!"Not a directory: {path}"
  | chunk error => error.message
  | settings error => error.message
  | task detail => s!"Chunking task failed: {detail}"

/-- What the error is counted under in a report. -/
def kind : IndexError → FailureKind
  | io .. => .io
  | notADirectory _ => .io
  | binary _ => .binary
  | tooLarge .. => .tooLarge
  | chunk (.unsupportedLanguage _) => .unsupported
  | chunk (.grammarUnavailable ..) => .grammarUnavailable
  | chunk (.grammarBinding ..) => .grammarBinding
  | chunk (.noParser _) => .noParser
  | chunk (.parseFailed _) => .parseFailed
  | chunk (.cache _) => .internal
  | settings _ => .internal
  | task _ => .internal

end IndexError

end DeclSplit

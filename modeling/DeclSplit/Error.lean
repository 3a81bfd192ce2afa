/-!
Why a text could not be cut into declarations.
-/
namespace DeclSplit

/-- A cause for which chunking a source fails. -/
inductive ChunkError where
  /-- The name is not that of a registered language. -/
  | unsupportedLanguage (name : String)
  /-- The grammar of the language cannot be loaded. -/
  | grammarUnavailable (language reason : String)
  /-- The grammar was loaded, but no parser takes it. -/
  | grammarBinding (language reason : String)
  /-- A parser was asked for and there is none. -/
  | noParser (language : String)
  /-- The parser produced no tree. -/
  | parseFailed (language : String)
  /-- The store of parsers is damaged. -/
  | cache (detail : String)
deriving DecidableEq, Repr

namespace ChunkError

/-- The text shown to the user. -/
def message : ChunkError → String
  | unsupportedLanguage name => s!"Language not supported: {name}"
  | grammarUnavailable language reason => s!"Grammar unavailable for {language}: {reason}"
  | grammarBinding language reason =>
    s!"Grammar for {language} failed to bind to a parser: {reason}"
  | noParser language => s!"No parser available for language: {language}"
  | parseFailed language => s!"Parse failed for language: {language}"
  | cache detail => s!"Cache error: {detail}"

/-- A short label of the cause. -/
def kind : ChunkError → String
  | unsupportedLanguage _ => "unsupported"
  | grammarUnavailable .. => "grammar_unavailable"
  | grammarBinding .. => "grammar_binding"
  | noParser _ => "no_parser"
  | parseFailed _ => "parse_failed"
  | cache _ => "internal"

end ChunkError

end DeclSplit

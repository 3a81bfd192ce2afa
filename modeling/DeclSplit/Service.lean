import DeclSplit.Chunk
import DeclSplit.Grammar
import DeclSplit.Language.Resolve

/-!
Cutting a source into chunks: ask for a parser, parse, survey the tree, and cut.
-/
namespace DeclSplit

/-- How sources are cut: where grammars come from, what the parsers make of a source by a grammar,
which declarations are kept, and what is done with unknown languages. -/
structure Service where
  loader : Loader
  parse : Language → String → Option Node
  filter : Filter := Filter.acceptAll
  fallback : Fallback := .strict

namespace Service

/-- The tree of a source in a language, by the parser that was asked for. -/
def tree (s : Service) (source : String) (language : Language) :
    Except ChunkError (Option Parser) → Except ChunkError Node
  | .error error => .error error
  | .ok none => .error (.noParser language.id)
  | .ok (some parser) =>
    if parser.poisoned then
      .error (.cache s!"parser lock poisoned for {language.id}")
    else
      match s.parse parser.grammar source with
      | some root => .ok root
      | none => .error (.parseFailed language.id)

/-- The declarations of a source. -/
def extract (s : Service) (source : String) (language : Language) (store : ParserStore) :
    Except ChunkError (List Boundary) × ParserStore :=
  let (parser, store) := store.parser s.loader language
  let survey := Survey.ofLanguage language source s.filter
  ((s.tree source language parser).map fun root => survey.boundaries (.ofRoot root), store)

/-- The chunks of a source, marked with the path it came from. -/
def chunkFile (s : Service) (source : String) (language : Language) (filePath : Option String)
    (store : ParserStore) : Except ChunkError (List Chunk) × ParserStore :=
  let (boundaries, store) := s.extract source language store
  (boundaries.map (Chunk.ofBoundaries source language filePath), store)

/-- The chunks of a source. -/
def chunk (s : Service) (source : String) (language : Language) (store : ParserStore) :
    Except ChunkError (List Chunk) × ParserStore :=
  s.chunkFile source language none store

/-- The chunks of a source in the language of a name. -/
def chunkNamed (s : Service) (source : String) (name : String) (store : ParserStore) :
    Except ChunkError (List Chunk) × ParserStore :=
  match s.fallback.resolve name with
  | .ok language => s.chunk source language store
  | .error error => (.error error, store)

/-- The service in diagnostic text. -/
def describe (s : Service) (store : ParserStore) : String :=
  let fallback :=
    match s.fallback with
    | .strict => "Strict"
    | .assume language => "Default(" ++ language.label ++ ")"
  "ChunkingService \x7b provider: " ++ store.describe ++ ", fallback: " ++ fallback ++ ", .. \x7d"

end Service

end DeclSplit

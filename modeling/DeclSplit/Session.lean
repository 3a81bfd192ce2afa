import DeclSplit.Service

/-!
A service in use: operations on it and on its store of parsers, one after the other.
-/
namespace DeclSplit

/-- An operation on a service or on its store. -/
inductive Operation where
  | parser (language : Language)
  | parserNamed (name : String)
  | failure (language : Language)
  | clear
  | poison (language : Language)
  | setFilter (filter : Filter)
  | setFallback (fallback : Fallback)
  | chunk (source : String) (language : Language)
  | chunkFile (source : String) (language : Language) (filePath : String)
  | chunkNamed (source name : String)
  | extract (source : String) (language : Language)
  | describe

/-- What an operation answers. -/
inductive Answer where
  | parser (result : Except ChunkError (Option Parser))
  | failure (error : Option ChunkError)
  | chunks (result : Except ChunkError (List Chunk))
  | boundaries (result : Except ChunkError (List Boundary))
  | description (store service : String)
  | done

/-- A service and its store. -/
structure Session where
  service : Service
  store : ParserStore := .empty

namespace Session

/-- The parser of the language of a name. An unknown name has none, and nothing is loaded. -/
def parserNamed (s : Session) (name : String) : Except ChunkError (Option Parser) × ParserStore :=
  match Language.ofName? name with
  | some language => s.store.parser s.service.loader language
  | none => (.ok none, s.store)

/-- Carries out an operation. -/
def step (s : Session) : Operation → Answer × Session
  | .parser language =>
    let (result, store) := s.store.parser s.service.loader language
    (.parser result, { s with store })
  | .parserNamed name =>
    let (result, store) := s.parserNamed name
    (.parser result, { s with store })
  | .failure language => (.failure (s.store.failure language), s)
  | .clear => (.done, { s with store := s.store.clear })
  | .poison language => (.done, { s with store := s.store.poison s.service.loader language })
  | .setFilter filter => (.done, { s with service := { s.service with filter } })
  | .setFallback fallback => (.done, { s with service := { s.service with fallback } })
  | .chunk source language =>
    let (result, store) := s.service.chunk source language s.store
    (.chunks result, { s with store })
  | .chunkFile source language filePath =>
    let (result, store) := s.service.chunkFile source language (some filePath) s.store
    (.chunks result, { s with store })
  | .chunkNamed source name =>
    let (result, store) := s.service.chunkNamed source name s.store
    (.chunks result, { s with store })
  | .extract source language =>
    let (result, store) := s.service.extract source language s.store
    (.boundaries result, { s with store })
  | .describe => (.description s.store.describe (s.service.describe s.store), s)

/-- Carries out operations in order. -/
def run (s : Session) (operations : List Operation) : Session :=
  operations.foldl (fun s operation => (s.step operation).2) s

end Session

end DeclSplit

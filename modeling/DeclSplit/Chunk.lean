import DeclSplit.Boundary
import DeclSplit.Json

/-!
Chunks: the parts of a source that its declarations cover, ready to be written out.
-/
namespace DeclSplit

/-- The declaration that a chunk holds. -/
structure Declaration where
  kind : String
  name : Option String
  parents : List String
  docs : Option String
deriving DecidableEq, Repr

/-- A part of a source, with the place at which it stands and the declaration that it holds. -/
structure Chunk where
  content : String
  startOffset : Nat
  endOffset : Nat
  startLine : Nat
  endLine : Nat
  language : Language
  declaration : Declaration
  filePath : Option String
deriving DecidableEq, Repr

namespace Chunk

/-- The chunk that a declaration covers in its source. -/
def ofBoundary (source : String) (language : Language) (filePath : Option String) (b : Boundary) :
    Chunk :=
  { content := Text.slice source b.startOffset b.endOffset
    startOffset := b.startOffset
    endOffset := b.endOffset
    startLine := b.startLine
    endLine := b.endLine
    language := language
    declaration :=
      { kind := b.kind
        name := b.name
        parents := b.parents
        docs := if b.docs = "" then none else some b.docs }
    filePath := filePath }

/-- The chunks of the declarations of a source, in their order. -/
def ofBoundaries (source : String) (language : Language) (filePath : Option String)
    (bs : List Boundary) : List Chunk :=
  bs.map (ofBoundary source language filePath)

end Chunk

end DeclSplit

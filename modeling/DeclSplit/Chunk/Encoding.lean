import DeclSplit.Chunk

/-!
Chunks as structured values. What a chunk does not have is left out when it is written, and may be
missing or null when it is read.
-/
namespace DeclSplit

namespace Language

/-- A language is written by its identifier. -/
def toJson (l : Language) : Json :=
  .str l.id

/-- A language is read from its identifier, or from an object whose only member has the identifier
for its key and is null. -/
def ofJson? : Json → Option Language
  | .str text => ofId? text
  | .obj [(key, .null)] => ofId? key
  | _ => none

end Language

namespace Declaration

/-- The value of a declaration. -/
def toJson (d : Declaration) : Json :=
  .obj <|
    [("type", .str d.kind)] ++
    (d.name.map fun name => ("name", Json.str name)).toList ++
    [("parent", .ofStrings d.parents)] ++
    (d.docs.map fun docs => ("docs", Json.str docs)).toList

/-- The names of the members of a declaration, in order. -/
def memberNames : List String :=
  ["type", "name", "parent", "docs"]

/-- The declaration of a value. -/
def ofJson? (value : Json) : Option Declaration := do
  let [kind, name, parents, docs] ← value.members? memberNames | none
  return {
    kind := ← Json.required Json.string? kind
    name := ← Json.withDefault none Json.optionalString? name
    parents := ← Json.withDefault [] Json.strings? parents
    docs := ← Json.withDefault none Json.optionalString? docs }

end Declaration

namespace Chunk

/-- The value of a chunk. -/
def toJson (c : Chunk) : Json :=
  .obj <|
    [("content", .str c.content),
      ("start_offset", .ofNat c.startOffset),
      ("end_offset", .ofNat c.endOffset),
      ("start_line", .ofNat c.startLine),
      ("end_line", .ofNat c.endLine),
      ("language", c.language.toJson),
      ("boundary", c.declaration.toJson)] ++
    (c.filePath.map fun path => ("file_path", Json.str path)).toList

/-- The names of the members of a chunk, in order. -/
def memberNames : List String :=
  ["content", "start_offset", "end_offset", "start_line", "end_line", "language", "boundary",
    "file_path"]

/-- The chunk of a value. -/
def ofJson? (value : Json) : Option Chunk := do
  let [content, startOffset, endOffset, startLine, endLine, language, declaration, filePath] ←
    value.members? memberNames | none
  return {
    content := ← Json.required Json.string? content
    startOffset := ← Json.required Json.word? startOffset
    endOffset := ← Json.required Json.word? endOffset
    startLine := ← Json.required Json.word? startLine
    endLine := ← Json.required Json.word? endLine
    language := ← Json.required Language.ofJson? language
    declaration := ← Json.required Declaration.ofJson? declaration
    filePath := ← Json.withDefault none Json.optionalString? filePath }

end Chunk

end DeclSplit

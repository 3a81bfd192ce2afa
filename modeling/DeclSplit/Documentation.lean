import DeclSplit.Language
import DeclSplit.Text.Blank
import DeclSplit.Tree.Cursor

/-!
The documentation of a declaration. In most languages it is the run of comments directly above the
declaration, one on each line; in Python it is the string that opens the body; in the others there
is none.
-/
namespace DeclSplit

/-- The way in which a language attaches documentation. -/
inductive DocFamily where
  /-- Comments directly above the declaration. -/
  | adjacentComments
  /-- A string as the first statement of the body. -/
  | docstring
  /-- None. -/
  | unsupported
deriving DecidableEq, Repr

/-- How a language attaches documentation. -/
def DocFamily.ofLanguage : Language → DocFamily
  | .javaScript | .typeScript | .tsx | .go | .rust | .java | .cSharp | .ruby | .c | .cpp =>
    .adjacentComments
  | .python => .docstring
  | .html | .css | .bash => .unsupported

/-- The place at which documentation above a declaration starts. -/
structure LeadingStart where
  byte : Nat
  row : Nat
deriving DecidableEq, Repr

/-- Documentation, and where it starts if it stands above the declaration. -/
structure Documentation where
  text : String
  leading : Option LeadingStart
deriving DecidableEq, Repr

namespace Documentation

/-- The kind of the statements that export a declaration and hold it as a child. -/
def exportKind : String := "export_statement"

/-- The node above which the comments of a declaration stand: the statement that exports it, if
there is one. -/
def anchor (c : Cursor) : Cursor :=
  match c.parent? with
  | some above => if above.node.kind = exportKind then above else c
  | none => c

/-- The comments that continue a run upwards, each starting on the row above the one before. -/
def extendRun (last : Node) : List Node → List Node
  | [] => []
  | next :: rest =>
    if next.isComment && next.span.startRow + 1 == last.span.startRow then
      next :: extendRun next rest
    else
      []

/-- The comments at the head of a list of siblings that belong together, nearest first. -/
def commentRun : List Node → List Node
  | [] => []
  | first :: rest => if first.isComment then first :: extendRun first rest else []

/-- The texts of a run from top to bottom, one on each line. -/
def runText (source : String) (run : List Node) : String :=
  "\n".intercalate (run.reverse.map fun comment => Text.trimLineEnd (comment.text source))

/-- The run of comments directly above a declaration. -/
def leadingComments (source : String) (c : Cursor) : Option Documentation :=
  let run := commentRun (anchor c).preceding
  run.getLast?.map fun top =>
    ⟨runText source run, some ⟨top.span.startByte, top.span.startRow⟩⟩

/-- The string that opens the body of a declaration, when it is a statement of its own. -/
def docstring (source : String) (n : Node) : Option Documentation := do
  let body ← n.field? "body"
  let statement ← body.namedChild? (!·.isComment)
  if statement.kind = "expression_statement" then
    match statement.namedChildren with
    | [literal] =>
      if literal.kind = "string" then some ⟨literal.text source, none⟩ else none
    | _ => none
  else
    none

/-- The documentation of the declaration at a cursor, if it has any. -/
def find? (language : Language) (source : String) (c : Cursor) : Option Documentation :=
  match DocFamily.ofLanguage language with
  | .adjacentComments => leadingComments source c
  | .docstring => docstring source c.node
  | .unsupported => none

end Documentation

end DeclSplit

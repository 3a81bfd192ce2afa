import DeclSplit.Tree.Node

/-!
A node together with its surroundings. What is above a node and to the left of it decides how it is
named and documented, so the analyses take a cursor and not a bare node.
-/
namespace DeclSplit

/-- One step down in a tree: the node left behind and the children passed over, nearest first. -/
structure Frame where
  parent : Node
  before : List Node

/-- A node and the steps that lead to it from the root, the last step first. -/
structure Cursor where
  node : Node
  path : List Frame

namespace Cursor

/-- The root of a tree, with nothing above it and nothing beside it. -/
def ofRoot (root : Node) : Cursor :=
  ⟨root, []⟩

/-- The node one step up. -/
def parent? (c : Cursor) : Option Cursor :=
  match c.path with
  | [] => none
  | frame :: above => some ⟨frame.parent, above⟩

/-- The siblings to the left, nearest first. -/
def preceding (c : Cursor) : List Node :=
  match c.path with
  | [] => []
  | frame :: _ => frame.before

mutual

/-- A node reached by `path` and everything below it, in pre-order. -/
def descend (path : List Frame) : Node → List Cursor
  | ⟨kind, named, span, fields, children⟩ =>
    let node : Node := ⟨kind, named, span, fields, children⟩
    ⟨node, path⟩ :: descendAll path node [] children

/-- Children of `parent`, those of `before` being passed over, and everything below them. -/
def descendAll (path : List Frame) (parent : Node) (before : List Node) :
    List Node → List Cursor
  | [] => []
  | child :: rest =>
    descend (⟨parent, before⟩ :: path) child ++ descendAll path parent (child :: before) rest

end

/-- The cursor and those of all nodes below it, in pre-order. -/
def preorder (c : Cursor) : List Cursor :=
  descend c.path c.node

end Cursor

end DeclSplit

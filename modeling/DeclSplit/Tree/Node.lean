import DeclSplit.Text.Slice

/-!
Concrete syntax trees. A node covers a range of the source; its children, the anonymous tokens
among them, stand in source order, and some of them can be reached by a field name.
-/
namespace DeclSplit

/-- The bytes and the rows that a node covers. The end byte is not covered; rows count from 0. -/
structure Span where
  startByte : Nat
  endByte : Nat
  startRow : Nat
  endRow : Nat
deriving DecidableEq, Repr

/-- A node of a syntax tree, with everything below it. A field gives the place of its child among
all the children. -/
structure Node where
  kind : String
  named : Bool
  span : Span
  fields : List (String × Nat)
  children : List Node
deriving Repr

namespace Node

mutual

/-- The number of nodes at and below a node. -/
def count : Node → Nat
  | ⟨_, _, _, _, children⟩ => countAll children + 1

/-- The number of nodes at and below the nodes of a list. -/
def countAll : List Node → Nat
  | [] => 0
  | n :: rest => count n + countAll rest

end

theorem count_eq (n : Node) : n.count = countAll n.children + 1 := by
  cases n
  simp only [count]

/-- The child that a field names. -/
def field? (n : Node) (field : String) : Option Node :=
  (n.fields.lookup field).bind (n.children[·]?)

/-- The children that are not anonymous tokens. -/
def namedChildren (n : Node) : List Node :=
  n.children.filter (·.named)

/-- The first child that is no anonymous token and satisfies `p`. -/
def namedChild? (n : Node) (p : Node → Bool) : Option Node :=
  n.namedChildren.find? p

/-- The part of the source that the node covers. -/
def text (n : Node) (source : String) : String :=
  Text.slice source n.span.startByte n.span.endByte

/-- Whether the node is a comment of some sort, by its kind. -/
def isComment (n : Node) : Bool :=
  Text.occursIn "comment".toList n.kind.toList

theorem sizeOf_lt_of_mem_children {n c : Node} (member : c ∈ n.children) : sizeOf c < sizeOf n := by
  have smaller := List.sizeOf_lt_of_mem member
  cases n
  simp only [Node.mk.sizeOf_spec]
  simp only at smaller
  omega

theorem mem_children_of_field? {n c : Node} {field : String} (found : n.field? field = some c) :
    c ∈ n.children := by
  obtain ⟨_, _, at_⟩ := Option.bind_eq_some_iff.1 found
  exact List.mem_of_getElem? at_

theorem mem_children_of_namedChild? {n c : Node} {p : Node → Bool}
    (found : n.namedChild? p = some c) : c ∈ n.children :=
  (List.mem_filter.1 (List.mem_of_find?_eq_some found)).1

end Node

end DeclSplit

import DeclSplit.Proofs.Text.Slice
import DeclSplit.Proofs.Tree.Ancestry

/-!
Trees behind more text. When a text is put before a source, every node of the tree of the source moves on by
the bytes and the line feeds of that text. Nothing else about the tree changes: a node has the same text, the
same children by the same names, and the same nodes above it and to the left of it.
-/

namespace DeclSplit

/-- A span behind `lead`. -/
def Span.shift (lead : String) (s : Span) : Span where
  startByte := lead.utf8ByteSize + s.startByte
  endByte := lead.utf8ByteSize + s.endByte
  startRow := lead.toList.count '\n' + s.startRow
  endRow := lead.toList.count '\n' + s.endRow

namespace Node

mutual

/-- A node behind `lead`, with everything below it. -/
def shift (lead : String) : Node → Node
  | ⟨kind, named, span, fields, children⟩ => ⟨kind, named, span.shift lead, fields, shiftAll lead children⟩

/-- The nodes of a list behind `lead`. -/
def shiftAll (lead : String) : List Node → List Node
  | [] => []
  | n :: rest => shift lead n :: shiftAll lead rest

end

variable (lead : String) (n : Node)

theorem shiftAll_eq_map : ∀ nodes : List Node, shiftAll lead nodes = nodes.map (shift lead)
  | [] => by rw [shiftAll, List.map_nil]
  | n :: rest => by rw [shiftAll, List.map_cons, shiftAll_eq_map rest]

theorem shift_eq :
    n.shift lead = ⟨n.kind, n.named, n.span.shift lead, n.fields, n.children.map (shift lead)⟩ := by
  cases n
  rw [shift, shiftAll_eq_map]

@[simp] theorem kind_shift : (n.shift lead).kind = n.kind := by rw [shift_eq]

@[simp] theorem named_shift : (n.shift lead).named = n.named := by rw [shift_eq]

@[simp] theorem span_shift : (n.shift lead).span = n.span.shift lead := by rw [shift_eq]

@[simp] theorem fields_shift : (n.shift lead).fields = n.fields := by rw [shift_eq]

@[simp] theorem children_shift : (n.shift lead).children = n.children.map (shift lead) := by rw [shift_eq]

@[simp] theorem isComment_shift : (n.shift lead).isComment = n.isComment := by
  simp only [isComment, kind_shift]

@[simp] theorem text_shift (source : String) : (n.shift lead).text (lead ++ source) = n.text source := by
  simp only [text, span_shift, Span.shift, Text.slice_append]

@[simp] theorem field?_shift (field : String) : (n.shift lead).field? field = (n.field? field).map (shift lead) := by
  simp only [field?, fields_shift, children_shift, List.getElem?_map]
  cases n.fields.lookup field <;> rfl

@[simp] theorem namedChildren_shift : (n.shift lead).namedChildren = n.namedChildren.map (shift lead) := by
  have named : (fun child : Node => child.named) ∘ shift lead = (·.named) := funext (named_shift lead)
  rw [namedChildren, children_shift, List.filter_map, named, namedChildren]

/-- A child that is looked for by what does not move is found at the same place. -/
theorem namedChild?_shift {p : Node → Bool} (steady : ∀ child : Node, p (child.shift lead) = p child) :
    (n.shift lead).namedChild? p = (n.namedChild? p).map (shift lead) := by
  rw [namedChild?, namedChildren_shift, List.find?_map, show p ∘ shift lead = p from funext steady, namedChild?]

section
variable {α : Type} {read readShifted : Node → Option α}
  (same : ∀ child : Node, readShifted (child.shift lead) = read child)
include same

theorem bind_field?_shift (field : String) :
    ((n.shift lead).field? field).bind readShifted = (n.field? field).bind read := by
  rw [field?_shift, Option.bind_map, show readShifted ∘ shift lead = read from funext same]

theorem bind_namedChild?_shift {p : Node → Bool} (steady : ∀ child : Node, p (child.shift lead) = p child) :
    ((n.shift lead).namedChild? p).bind readShifted = (n.namedChild? p).bind read := by
  rw [namedChild?_shift lead n steady, Option.bind_map, show readShifted ∘ shift lead = read from funext same]

end

end Node

def Frame.shift (lead : String) (frame : Frame) : Frame :=
  ⟨frame.parent.shift lead, frame.before.map (Node.shift lead)⟩

namespace Cursor

/-- A node behind `lead`, with its surroundings. -/
def shift (lead : String) (c : Cursor) : Cursor := ⟨c.node.shift lead, c.path.map (Frame.shift lead)⟩

variable (lead : String) (c : Cursor)

@[simp] theorem node_shift : (c.shift lead).node = c.node.shift lead := rfl

@[simp] theorem depth_shift : (c.shift lead).depth = c.depth := List.length_map _

theorem parent?_shift : (c.shift lead).parent? = c.parent?.map (shift lead) := by
  obtain ⟨n, path⟩ := c
  cases path <;> rfl

theorem preceding_shift : (c.shift lead).preceding = c.preceding.map (Node.shift lead) := by
  obtain ⟨n, path⟩ := c
  cases path <;> rfl

theorem through_shift : ∀ path : List Frame, through (path.map (Frame.shift lead)) = (through path).map (shift lead)
  | [] => rfl
  | frame :: path => by
    rw [List.map_cons, through, through, List.map_cons, through_shift path]
    rfl

theorem ancestors_shift : (c.shift lead).ancestors = c.ancestors.map (shift lead) :=
  through_shift lead c.path

mutual

theorem descend_shift (path : List Frame) : ∀ n : Node,
    descend (path.map (Frame.shift lead)) (n.shift lead) = (descend path n).map (shift lead)
  | ⟨kind, named, span, fields, children⟩ => by
    have below := descendAll_shift path ⟨kind, named, span, fields, children⟩ [] children
    rw [descend_eq, descend_eq, List.map_cons, ← below, Node.children_shift, Node.shiftAll_eq_map]
    rfl

theorem descendAll_shift (path : List Frame) (parent : Node) (before : List Node) : ∀ children : List Node,
    descendAll (path.map (Frame.shift lead)) (parent.shift lead) (before.map (Node.shift lead))
      (Node.shiftAll lead children) = (descendAll path parent before children).map (shift lead)
  | [] => by simp only [Node.shiftAll, descendAll, List.map_nil]
  | child :: rest => by
    have first := descend_shift (⟨parent, before⟩ :: path) child
    have others := descendAll_shift path parent (child :: before) rest
    rw [Node.shiftAll, descendAll, descendAll, List.map_append, ← first, ← others]
    rfl

end

theorem preorder_shift : (c.shift lead).preorder = c.preorder.map (shift lead) :=
  descend_shift lead c.path c.node

end Cursor

end DeclSplit

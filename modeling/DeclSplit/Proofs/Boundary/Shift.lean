import DeclSplit.Proofs.Boundary.Hierarchy
import DeclSplit.Proofs.Tree.Shift

/-!
Declarations behind more text. Names and documentation are read from the texts of nodes and from rows that are
compared with each other, never from a row or a byte by itself. So a text that is put before a source moves
the ranges of all declarations and changes nothing else about them.
-/

namespace DeclSplit

open Cursor

variable (lead source : String)

/-! ### Names -/

namespace Naming
variable (n : Node) (c : Cursor)

theorem textOf_shift : textOf (lead ++ source) (n.shift lead) = textOf source n := by
  rw [textOf, Node.text_shift, textOf]

theorem fieldText_shift (field : String) :
    fieldText (lead ++ source) (n.shift lead) field = fieldText source n field :=
  n.bind_field?_shift lead (textOf_shift lead source) field

theorem identifier?_shift : identifier? (n.shift lead) = (identifier? n).map (Node.shift lead) :=
  n.namedChild?_shift lead fun child => by rw [Node.kind_shift]

theorem bindingName_shift : bindingName (lead ++ source) (n.shift lead) = bindingName source n := by
  simp only [bindingName, Node.kind_shift, fieldText_shift]

theorem scriptName_shift : scriptName (lead ++ source) (c.shift lead) = scriptName source c := by
  have above : (c.shift lead).parent?.bind (fun above => bindingName (lead ++ source) above.node) =
      c.parent?.bind fun above => bindingName source above.node := by
    rw [parent?_shift, Option.bind_map]
    congr 1
    funext above
    exact bindingName_shift lead source above.node
  have declarator : ((c.node.shift lead).namedChild? (·.kind == "variable_declarator")).bind
        (fieldText (lead ++ source) · "name") =
      (c.node.namedChild? (·.kind == "variable_declarator")).bind (fieldText source · "name") :=
    c.node.bind_namedChild?_shift lead (fun child => fieldText_shift lead source child "name")
      fun child => by rw [Node.kind_shift]
  simp only [scriptName, node_shift, Node.kind_shift, above, declarator]

theorem leftmostName_shift : leftmostName (lead ++ source) (n.shift lead) = leftmostName source n := by
  fun_induction leftmostName source n with
  | case1 n identifier first =>
    rw [leftmostName_eq, identifier?_shift, first]
    exact textOf_shift lead source identifier
  | case2 n absent next first _ ih =>
    rw [leftmostName_eq, identifier?_shift, absent,
      n.namedChild?_shift lead fun child => by rw [Node.isComment_shift], first]
    exact ih
  | case3 n absent last =>
    rw [leftmostName_eq, identifier?_shift, absent,
      n.namedChild?_shift lead fun child => by rw [Node.isComment_shift], last]
    rfl

theorem nextDeclarator?_shift : nextDeclarator? (n.shift lead) = (nextDeclarator? n).map (Node.shift lead) := by
  rw [nextDeclarator?, nextDeclarator?, Node.field?_shift, n.namedChild?_shift lead fun _ => rfl]
  cases n.field? "declarator" <;> rfl

theorem declaredName_shift : declaredName (lead ++ source) (n.shift lead) = declaredName source n := by
  fun_induction declaredName source n with
  | case1 n ends =>
    rw [declaredName_eq, Node.kind_shift, if_pos ends, textOf_shift]
  | case2 n goesOn next leads _ ih =>
    rw [declaredName_eq, Node.kind_shift, if_neg goesOn, nextDeclarator?_shift, leads]
    exact ih
  | case3 n goesOn stuck =>
    rw [declaredName_eq, Node.kind_shift, if_neg goesOn, nextDeclarator?_shift, stuck]
    rfl

theorem tagName_shift : tagName (lead ++ source) (n.shift lead) = tagName source n := by
  refine n.bind_namedChild?_shift lead (fun tag => ?_) fun child => by rw [Node.kind_shift]
  exact tag.bind_namedChild?_shift lead (textOf_shift lead source) fun child => by rw [Node.kind_shift]

theorem styleName_shift : styleName (lead ++ source) (n.shift lead) = styleName source n := by
  have child (kind : String) := n.bind_namedChild?_shift lead (textOf_shift lead source)
    (p := (·.kind == kind)) fun child => by rw [Node.kind_shift]
  simp only [styleName, Node.kind_shift, child]

theorem languageName_shift (language : Language) :
    languageName language (lead ++ source) (c.shift lead) = languageName language source c := by
  cases language with
  | javaScript | typeScript | tsx => exact scriptName_shift lead source c
  | go => exact leftmostName_shift lead source c.node
  | rust => simp only [languageName, node_shift, Node.kind_shift, fieldText_shift]
  | java =>
    have declarator : ((c.node.shift lead).field? "declarator").bind (fieldText (lead ++ source) · "name") =
        (c.node.field? "declarator").bind (fieldText source · "name") :=
      c.node.bind_field?_shift lead (fun child => fieldText_shift lead source child "name") "declarator"
    simp only [languageName, node_shift, Node.kind_shift, declarator]
  | c | cpp => exact c.node.bind_field?_shift lead (declaredName_shift lead source) "declarator"
  | html => exact tagName_shift lead source c.node
  | css => exact styleName_shift lead source c.node
  | python | cSharp | ruby | bash => rfl

theorem name?_shift (language : Language) :
    name? language (lead ++ source) (c.shift lead) = name? language source c := by
  have identifier : (identifier? (c.node.shift lead)).bind (textOf (lead ++ source)) =
      (identifier? c.node).bind (textOf source) :=
    c.node.bind_namedChild?_shift lead (textOf_shift lead source) fun child => by rw [Node.kind_shift]
  simp only [name?, node_shift, fieldText_shift, languageName_shift, identifier]

end Naming

/-! ### Documentation -/

def LeadingStart.shift (start : LeadingStart) : LeadingStart :=
  ⟨lead.utf8ByteSize + start.byte, lead.toList.count '\n' + start.row⟩

namespace Documentation

def shift (docs : Documentation) : Documentation := ⟨docs.text, docs.leading.map (LeadingStart.shift lead)⟩

theorem anchor_shift (c : Cursor) : anchor (c.shift lead) = (anchor c).shift lead := by
  rw [anchor, anchor, parent?_shift]
  cases c.parent? with
  | none => rfl
  | some above =>
    simp only [Option.map_some, node_shift, Node.kind_shift]
    split <;> rfl

theorem extendRun_shift (last : Node) (before : List Node) :
    extendRun (last.shift lead) (before.map (Node.shift lead)) = (extendRun last before).map (Node.shift lead) := by
  -- Both rows move by the same number, so one is still below the other.
  have rows (next last : Node) : ((next.shift lead).span.startRow + 1 == (last.shift lead).span.startRow) =
      (next.span.startRow + 1 == last.span.startRow) := by
    simp only [Node.span_shift, Span.shift, Nat.add_assoc, beq_eq_beq, Nat.add_left_cancel_iff]
  fun_induction extendRun last before with
  | case1 => rfl
  | case2 last next rest fits ih =>
    rw [List.map_cons, extendRun, rows, Node.isComment_shift, if_pos fits, ih, List.map_cons]
  | case3 last next rest stops =>
    rw [List.map_cons, extendRun, rows, Node.isComment_shift, if_neg stops, List.map_nil]

theorem commentRun_shift (before : List Node) :
    commentRun (before.map (Node.shift lead)) = (commentRun before).map (Node.shift lead) := by
  cases before with
  | nil => rfl
  | cons first rest =>
    rw [List.map_cons, commentRun, commentRun, Node.isComment_shift, extendRun_shift]
    split <;> rfl

theorem runText_shift (run : List Node) :
    runText (lead ++ source) (run.map (Node.shift lead)) = runText source run := by
  rw [runText, runText, ← List.map_reverse, List.map_map]
  simp only [Function.comp_def, Node.text_shift]

theorem leadingComments_shift (c : Cursor) :
    leadingComments (lead ++ source) (c.shift lead) = (leadingComments source c).map (shift lead) := by
  simp only [leadingComments, anchor_shift, preceding_shift, commentRun_shift, runText_shift, List.getLast?_map,
    Option.map_map]
  congr 1
  funext top
  simp only [Function.comp_apply, Node.span_shift, Span.shift, shift, Option.map_some, LeadingStart.shift]

theorem docstring_shift (n : Node) :
    docstring (lead ++ source) (n.shift lead) = (docstring source n).map (shift lead) := by
  simp only [docstring, Option.bind_eq_bind, Option.map_bind]
  refine n.bind_field?_shift lead (fun body => ?_) "body"
  rw [Function.comp_apply, Option.map_bind]
  refine body.bind_namedChild?_shift lead (fun statement => ?_) fun child => by rw [Node.isComment_shift]
  simp only [Function.comp_apply, Node.kind_shift, Node.namedChildren_shift]
  split
  · rcases statement.namedChildren with _ | ⟨literal, _ | ⟨_, _⟩⟩
    · rfl
    · simp only [List.map_cons, List.map_nil, Node.kind_shift, Node.text_shift]
      split <;> rfl
    · rfl
  · rfl

theorem find?_shift (language : Language) (c : Cursor) :
    find? language (lead ++ source) (c.shift lead) = (find? language source c).map (shift lead) := by
  rw [find?, find?]
  cases DocFamily.ofLanguage language with
  | adjacentComments => exact leadingComments_shift lead source c
  | docstring => exact docstring_shift lead source c.node
  | unsupported => rfl

end Documentation

/-! ### Records -/

/-- A record of a declaration behind `lead`. -/
def Boundary.shift (b : Boundary) : Boundary :=
  { b with
    startOffset := lead.utf8ByteSize + b.startOffset
    endOffset := lead.utf8ByteSize + b.endOffset
    startLine := lead.toList.count '\n' + b.startLine
    endLine := lead.toList.count '\n' + b.endLine }

theorem Cursor.ancestorsWithin_shift (c d : Cursor) :
    ancestorsWithin (c.shift lead) (d.shift lead) = (ancestorsWithin c d).map (Cursor.shift lead) := by
  rw [ancestorsWithin, ancestors_shift, List.filter_map, ancestorsWithin]
  congr 1
  apply List.filter_congr
  intro a _
  simp only [Function.comp_apply, depth_shift]

namespace Survey
variable (s : Survey) (g : Filter)

/-- The survey of a source behind `lead`, under another filter. -/
def shift : Survey := { s with source := lead ++ s.source, filter := g }

theorem record_shift (d : Cursor) (parents : List String) :
    (s.shift lead g).record (d.shift lead) parents = (s.record d parents).shift lead := by
  simp only [record, shift, Documentation.find?_shift, Naming.name?_shift, node_shift, Node.kind_shift, Node.text_shift,
    Node.span_shift, Span.shift, Boundary.shift]
  cases Documentation.find? s.language s.source d with
  | none => simp [Nat.add_assoc]
  | some docs =>
    cases leading : docs.leading with
    | none => simp [Documentation.shift, leading, Nat.add_assoc]
    | some start => simp [Documentation.shift, leading, LeadingStart.shift, Nat.add_assoc]

/-- A walk over a tree behind `lead` makes the records of the walk over the tree by itself, with their ranges
and lines moved on. The filters need only agree on the nodes of the two walks. -/
theorem boundaries_shift (c : Cursor) (agrees : ∀ d, Below c d → g s.language (d.shift lead) = s.filter s.language d) :
    (s.shift lead g).boundaries (c.shift lead) = (s.boundaries c).map (Boundary.shift lead) := by
  have keeps (d : Cursor) (below : Below c d) : (s.shift lead g).keeps (d.shift lead) = s.keeps d := by
    simp only [keeps, shift, node_shift, Node.named_shift, Node.kind_shift, agrees d below]
  exact boundaries_map keeps (record_shift lead s g) (fun _ => rfl) (preorder_shift lead c)
    (ancestorsWithin_shift lead c)

/-- Keeps what starts on a row or below it. -/
def fromRow (row : Nat) : Filter := fun _ c => row ≤ c.node.span.startRow

/-- Behind a line with a character of two bytes, everything is one row and six bytes farther on. -/
theorem documented_behind_line :
    (∀ d, Below (.ofRoot documentedTree) d →
      fromRow 2 .javaScript (d.shift "// é\n") = fromRow 1 .javaScript d) ∧
      ((ofLanguage .javaScript documentedSource (fromRow 1)).shift "// é\n" (fromRow 2)).boundaries
          ((ofRoot documentedTree).shift "// é\n") =
        [⟨"class_declaration", [], some "A", 6, 38, "class A \x7b m() \x7b\x7d \x7d", "// doc", 2, 3⟩,
          ⟨"method_definition", ["A"], some "m", 30, 36, "m() \x7b\x7d", "", 3, 3⟩] := by
  have agrees : ∀ d, Below (.ofRoot documentedTree) d →
      fromRow 2 .javaScript (d.shift "// é\n") = fromRow 1 .javaScript d := by
    intro d _
    have lines : "// é\n".toList.count '\n' = 1 := by decide
    simp only [fromRow, node_shift, Node.span_shift, Span.shift, lines, decide_eq_decide]
    omega
  refine ⟨agrees, ?_⟩
  rw [boundaries_shift "// é\n" (ofLanguage .javaScript documentedSource (fromRow 1)) (fromRow 2) _ agrees,
    boundaries_eq_records]
  decide +kernel

end Survey

end DeclSplit

import DeclSplit.Language
import DeclSplit.Text.Blank
import DeclSplit.Tree.Cursor

/-!
The name of a declaration. A node is named by its field `name`, else by a rule of its language, else
by its field `key`, else by its first child that is an identifier. A text that is blank names
nothing, and the next way is tried.
-/
namespace DeclSplit.Naming

/-- The kinds of nodes that are identifiers in their own right. -/
def identifierKinds : List String :=
  ["identifier", "type_identifier", "property_identifier", "field_identifier", "constant", "name"]

/-- The kinds at which a chain of declarators ends. -/
def declaratorEnds : List String :=
  ["identifier", "field_identifier", "type_identifier", "qualified_identifier", "destructor_name",
    "operator_name"]

/-- The kinds of function values, which are named by what they are bound to. -/
def functionValues : List String :=
  ["arrow_function", "function_expression", "generator_function"]

/-- The trimmed text of a node, unless it is blank. -/
def textOf (source : String) (n : Node) : Option String :=
  Text.trimmed? (n.text source)

/-- The trimmed text of the child that a field names, unless it is blank. -/
def fieldText (source : String) (n : Node) (field : String) : Option String :=
  (n.field? field).bind (textOf source)

/-- The first child that is an identifier. -/
def identifier? (n : Node) : Option Node :=
  n.namedChild? (identifierKinds.contains ·.kind)

/-- What a function value is bound to, by the node above it. -/
def bindingName (source : String) (above : Node) : Option String :=
  match above.kind with
  | "variable_declarator" => fieldText source above "name"
  | "pair" => fieldText source above "key"
  | "assignment_expression" => fieldText source above "left"
  | "public_field_definition" | "field_definition" =>
    fieldText source above "name" <|> fieldText source above "property"
  | _ => none

/-- A function value takes the name it is bound to, a variable declaration the name of its first
declarator. -/
def scriptName (source : String) (c : Cursor) : Option String :=
  if functionValues.contains c.node.kind then
    c.parent?.bind fun above => bindingName source above.node
  else if c.node.kind = "lexical_declaration" ∨ c.node.kind = "variable_declaration" then
    (c.node.namedChild? (·.kind == "variable_declarator")).bind (fieldText source · "name")
  else
    none

/-- Goes down through the first children that are no comments to the first node with an identifier
among its children, and takes that identifier. -/
def leftmostName (source : String) (n : Node) : Option String :=
  match identifier? n with
  | some identifier => textOf source identifier
  | none =>
    match found : n.namedChild? (!·.isComment) with
    | some next =>
      have := Node.sizeOf_lt_of_mem_children (Node.mem_children_of_namedChild? found)
      leftmostName source next
    | none => none
termination_by sizeOf n

theorem leftmostName_eq (source : String) (n : Node) :
    leftmostName source n =
      match identifier? n with
      | some identifier => textOf source identifier
      | none => (n.namedChild? (!·.isComment)).bind (leftmostName source) := by
  rw [leftmostName]
  split
  · rfl
  · split <;> simp_all

/-- The node to which a declarator that is no end leads: its own declarator, else its first child. -/
def nextDeclarator? (n : Node) : Option Node :=
  n.field? "declarator" <|> n.namedChild? fun _ => true

theorem sizeOf_nextDeclarator? {n next : Node} (found : nextDeclarator? n = some next) :
    sizeOf next < sizeOf n := by
  apply Node.sizeOf_lt_of_mem_children
  cases byField : n.field? "declarator" with
  | some child =>
    obtain rfl : child = next := by simpa [nextDeclarator?, byField] using found
    exact Node.mem_children_of_field? byField
  | none =>
    exact Node.mem_children_of_namedChild? (by simpa [nextDeclarator?, byField] using found)

/-- Follows declarators down to the identifier that is declared. -/
def declaredName (source : String) (n : Node) : Option String :=
  if declaratorEnds.contains n.kind then
    textOf source n
  else
    match found : nextDeclarator? n with
    | some next =>
      have := sizeOf_nextDeclarator? found
      declaredName source next
    | none => none
termination_by sizeOf n

theorem declaredName_eq (source : String) (n : Node) :
    declaredName source n =
      if declaratorEnds.contains n.kind then textOf source n
      else (nextDeclarator? n).bind (declaredName source) := by
  rw [declaredName]
  split
  · rfl
  · split <;> simp_all

/-- An element is named by the tag that opens it. -/
def tagName (source : String) (n : Node) : Option String := do
  let tag ← n.namedChild? fun child => child.kind == "start_tag" || child.kind == "self_closing_tag"
  let name ← tag.namedChild? (·.kind == "tag_name")
  textOf source name

/-- A style rule is named by its selectors, an animation by its name. -/
def styleName (source : String) (n : Node) : Option String :=
  match n.kind with
  | "rule_set" => (n.namedChild? (·.kind == "selectors")).bind (textOf source)
  | "keyframes_statement" => (n.namedChild? (·.kind == "keyframes_name")).bind (textOf source)
  | _ => none

/-- The rule that a language adds to the general ones. -/
def languageName (language : Language) (source : String) (c : Cursor) : Option String :=
  match language with
  | .javaScript | .typeScript | .tsx => scriptName source c
  | .go => leftmostName source c.node
  | .rust => if c.node.kind = "impl_item" then fieldText source c.node "type" else none
  | .java =>
    if c.node.kind = "field_declaration" then
      (c.node.field? "declarator").bind (fieldText source · "name")
    else
      none
  | .c | .cpp => (c.node.field? "declarator").bind (declaredName source)
  | .html => tagName source c.node
  | .css => styleName source c.node
  | .python | .cSharp | .ruby | .bash => none

/-- The name of the declaration at a cursor, if it has one. -/
def name? (language : Language) (source : String) (c : Cursor) : Option String :=
  fieldText source c.node "name" <|>
    languageName language source c <|>
    fieldText source c.node "key" <|>
    (identifier? c.node).bind (textOf source)

end DeclSplit.Naming

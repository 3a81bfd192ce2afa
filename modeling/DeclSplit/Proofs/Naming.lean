import DeclSplit.Proofs.Boundary.Walk
import DeclSplit.Proofs.Text.Blank
import DeclSplit.Proofs.Tree.Layout
import Mathlib.Data.Option.Basic

/-!
Where names come from. Whichever way a declaration gets its name, the name is the trimmed text of a node
below the declaration or below the node above it, and a text of which nothing is left names nothing. So
no name in a record is empty or padded, neither that of the declaration nor those around it.
-/

namespace DeclSplit

open Cursor

/-- `m` is below `n`. -/
def Node.Holds (n m : Node) : Prop := Relation.TransGen (fun parent child : Node => child ∈ parent.children) n m

theorem Cursor.exists_of_holds {c : Cursor} {m : Node} (holds : c.node.Holds m) :
    ∃ d, Below c d ∧ c ∈ d.ancestors ∧ d.node = m := by
  induction holds with
  | single member =>
    obtain ⟨d, child, rfl⟩ := exists_childOf member
    exact ⟨d, .single child, child.mem_ancestors .refl, rfl⟩
  | tail _ member ih =>
    obtain ⟨e, below, -, rfl⟩ := ih
    obtain ⟨d, child, rfl⟩ := exists_childOf member
    exact ⟨d, below.tail child, child.mem_ancestors below, rfl⟩

namespace Naming
variable {language : Language} {source name field : String} {n : Node} {c : Cursor}

/-- `name` is what is left of the text of a node below `n`. -/
def ReadBelow (source : String) (n : Node) (name : String) : Prop := ∃ m, n.Holds m ∧ textOf source m = some name

theorem readBelow_of_child {child : Node} (member : child ∈ n.children) (read : textOf source child = some name) :
    ReadBelow source n name :=
  ⟨child, .single member, read⟩

theorem ReadBelow.of_child {child : Node} (read : ReadBelow source child name) (member : child ∈ n.children) :
    ReadBelow source n name := by
  obtain ⟨m, holds, read⟩ := read
  exact ⟨m, .head member holds, read⟩

theorem readBelow_of_fieldText (found : fieldText source n field = some name) : ReadBelow source n name := by
  obtain ⟨child, named, read⟩ := Option.bind_eq_some_iff.mp found
  exact readBelow_of_child (Node.mem_children_of_field? named) read

theorem readBelow_of_namedChild? {p : Node → Bool} (found : (n.namedChild? p).bind (textOf source) = some name) :
    ReadBelow source n name := by
  obtain ⟨child, first, read⟩ := Option.bind_eq_some_iff.mp found
  exact readBelow_of_child (Node.mem_children_of_namedChild? first) read

/-! ### The rules of the languages -/

theorem readBelow_of_bindingName (found : bindingName source n = some name) : ReadBelow source n name := by
  unfold bindingName at found
  split at found
  · exact readBelow_of_fieldText found
  · exact readBelow_of_fieldText found
  · exact readBelow_of_fieldText found
  · rcases (Option.orElse_eq_some _ _ _).mp found with found | ⟨-, found⟩ <;> exact readBelow_of_fieldText found
  · rcases (Option.orElse_eq_some _ _ _).mp found with found | ⟨-, found⟩ <;> exact readBelow_of_fieldText found
  · cases found

/-- A function value is named below the node above it, a variable declaration below itself. -/
theorem readBelow_of_scriptName (found : scriptName source c = some name) :
    ReadBelow source c.node name ∨ ∃ above, c.parent? = some above ∧ ReadBelow source above.node name := by
  unfold scriptName at found
  split at found
  · obtain ⟨above, parent, bound⟩ := Option.bind_eq_some_iff.mp found
    exact Or.inr ⟨above, parent, readBelow_of_bindingName bound⟩
  · split at found
    · obtain ⟨declarator, first, read⟩ := Option.bind_eq_some_iff.mp found
      exact Or.inl ((readBelow_of_fieldText read).of_child (Node.mem_children_of_namedChild? first))
    · cases found

theorem readBelow_of_leftmostName (found : leftmostName source n = some name) : ReadBelow source n name := by
  fun_induction leftmostName source n with
  | case1 n identifier first => exact readBelow_of_child (Node.mem_children_of_namedChild? first) found
  | case2 n _ next first _ ih => exact (ih found).of_child (Node.mem_children_of_namedChild? first)
  | case3 => cases found

theorem mem_children_of_nextDeclarator? {next : Node} (found : nextDeclarator? n = some next) : next ∈ n.children := by
  rcases (Option.orElse_eq_some _ _ _).mp found with byField | ⟨-, first⟩
  · exact Node.mem_children_of_field? byField
  · exact Node.mem_children_of_namedChild? first

/-- A declarator that is an end names itself, so the name is read below the node that holds it. -/
theorem readBelow_of_declaredName {declarator : Node} (member : declarator ∈ n.children)
    (found : declaredName source declarator = some name) : ReadBelow source n name := by
  fun_induction declaredName source declarator generalizing n with
  | case1 => exact readBelow_of_child member found
  | case2 declarator _ next leads _ ih =>
    exact (ih (mem_children_of_nextDeclarator? leads) found).of_child member
  | case3 => cases found

theorem readBelow_of_tagName (found : tagName source n = some name) : ReadBelow source n name := by
  obtain ⟨tag, first, found⟩ := Option.bind_eq_some_iff.mp found
  exact (readBelow_of_namedChild? found).of_child (Node.mem_children_of_namedChild? first)

theorem readBelow_of_styleName (found : styleName source n = some name) : ReadBelow source n name := by
  unfold styleName at found
  split at found
  · exact readBelow_of_namedChild? found
  · exact readBelow_of_namedChild? found
  · cases found

theorem readBelow_of_languageName (found : languageName language source c = some name) :
    ReadBelow source c.node name ∨ ∃ above, c.parent? = some above ∧ ReadBelow source above.node name := by
  cases language with
  | javaScript | typeScript | tsx => exact readBelow_of_scriptName found
  | go => exact Or.inl (readBelow_of_leftmostName found)
  | rust =>
    simp only [languageName] at found
    split at found
    · exact Or.inl (readBelow_of_fieldText found)
    · cases found
  | java =>
    simp only [languageName] at found
    split at found
    · obtain ⟨declarator, byField, read⟩ := Option.bind_eq_some_iff.mp found
      exact Or.inl ((readBelow_of_fieldText read).of_child (Node.mem_children_of_field? byField))
    · cases found
  | c | cpp =>
    obtain ⟨declarator, byField, declared⟩ := Option.bind_eq_some_iff.mp found
    exact Or.inl (readBelow_of_declaredName (Node.mem_children_of_field? byField) declared)
  | html => exact Or.inl (readBelow_of_tagName found)
  | css => exact Or.inl (readBelow_of_styleName found)
  | python | cSharp | ruby | bash => cases found

theorem readBelow_of_name? (found : name? language source c = some name) :
    ReadBelow source c.node name ∨ ∃ above, c.parent? = some above ∧ ReadBelow source above.node name := by
  rcases (Option.orElse_eq_some _ _ _).mp found with found | ⟨-, found⟩
  · exact Or.inl (readBelow_of_fieldText found)
  rcases (Option.orElse_eq_some _ _ _).mp found with found | ⟨-, found⟩
  · exact readBelow_of_languageName found
  rcases (Option.orElse_eq_some _ _ _).mp found with found | ⟨-, found⟩
  · exact Or.inl (readBelow_of_fieldText found)
  · exact Or.inl (readBelow_of_namedChild? found)

/-! ### Names in trees and records -/

theorem trimmed_of_name? (found : name? language source c = some name) : Text.Trimmed name := by
  rcases readBelow_of_name? found with ⟨m, -, read⟩ | ⟨above, -, m, -, read⟩
  · exact Text.trimmed_of_trimmed? read
  · exact Text.trimmed_of_trimmed? read

/-- In a tree, what is read below a node is read off a node of the tree. -/
theorem ReadBelow.exists_node {root : Node} (inside : Below (.ofRoot root) c) (read : ReadBelow source c.node name) :
    ∃ d ∈ (ofRoot root).preorder, c ∈ d.ancestors ∧ Text.trim (d.node.text source) = name := by
  obtain ⟨m, holds, read⟩ := read
  obtain ⟨d, below, above, rfl⟩ := exists_of_holds holds
  exact ⟨d, mem_preorder_iff.mpr (inside.trans below), above, (Text.trimmed?_eq_some_iff.mp read).1⟩

end Naming

namespace Survey

/-- A node of a tree that has a name has it from a node below it or below the node above it: the name is the
text of that node without the blanks around it, and is not empty. In the records of a walk there are no other
names, neither for the declarations nor for those around them. -/
theorem names_are_trimmed_texts (s : Survey) (root : Node) :
    (∀ c ∈ (ofRoot root).preorder, ∀ name, Naming.name? s.language s.source c = some name →
      Text.Trimmed name ∧ ∃ d ∈ (ofRoot root).preorder,
        (c ∈ d.ancestors ∨ ∃ above, c.parent? = some above ∧ above ∈ d.ancestors) ∧
          Text.trim (d.node.text s.source) = name) ∧
      ∀ c, ∀ b ∈ s.boundaries c,
        (∀ name ∈ b.name, Text.Trimmed name) ∧ ∀ parent ∈ b.parents, Text.Trimmed parent := by
  refine ⟨fun c member name found => ⟨Naming.trimmed_of_name? found, ?_⟩, fun c b member => ?_⟩
  · have inside := mem_preorder_iff.mp member
    rcases Naming.readBelow_of_name? found with read | ⟨above, parent, read⟩
    · obtain ⟨d, member, under, text⟩ := read.exists_node inside
      exact ⟨d, member, Or.inl under, text⟩
    · have higher : Below (.ofRoot root) above := inside.above (parent_mem_lineage parent)
      obtain ⟨d, member, under, text⟩ := read.exists_node higher
      exact ⟨d, member, Or.inr ⟨above, parent, under⟩, text⟩
  · rw [boundaries_eq_records] at member
    obtain ⟨d, -, rfl⟩ := List.mem_map.mp member
    refine ⟨fun name found => Naming.trimmed_of_name? found, fun parent given => ?_⟩
    obtain ⟨a, -, gives⟩ := List.mem_filterMap.mp (List.mem_reverse.mp given)
    exact Naming.trimmed_of_name? (given_eq_some.mp gives).2

end Survey

/-! ### A function that a variable holds -/

def boundSource : String := "const f = () => 1\n"

def boundFunction : Node :=
  ⟨"arrow_function", true, ⟨10, 17, 0, 0⟩, [("parameters", 0), ("body", 2)],
    [.token "formal_parameters" true 10 12 0, .token "=>" false 13 15 0, .token "number" true 16 17 0]⟩

/-- The declarator of `boundSource`, with a name that covers the blanks around it. -/
def boundDeclarator : Node :=
  ⟨"variable_declarator", true, ⟨5, 17, 0, 0⟩, [("name", 0), ("value", 2)],
    [.token "identifier" true 5 8 0, .token "=" false 8 9 0, boundFunction]⟩

def boundDeclaration : Node :=
  ⟨"lexical_declaration", true, ⟨0, 17, 0, 0⟩, [], [.token "const" false 0 5 0, boundDeclarator]⟩

def boundTree : Node := ⟨"program", true, ⟨0, 18, 0, 1⟩, [], [boundDeclaration]⟩

/-- The place of the function, which has its name from the declarator above it. -/
def boundPlace : Cursor :=
  ⟨boundFunction, [⟨boundDeclarator, [.token "=" false 8 9 0, .token "identifier" true 5 8 0]⟩,
    ⟨boundDeclaration, [.token "const" false 0 5 0]⟩, ⟨boundTree, []⟩]⟩

namespace Survey

def bound : Survey := ofLanguage .javaScript boundSource Filter.acceptAll

theorem boundPlace_below : Below (.ofRoot boundTree) boundPlace :=
  .head (b := ⟨boundDeclaration, boundPlace.path.drop 2⟩) ⟨rfl⟩
    (.head (b := ⟨boundDeclarator, boundPlace.path.drop 1⟩) ⟨rfl⟩ (.single ⟨rfl⟩))

theorem bound_name_trimmed :
    boundPlace ∈ (ofRoot boundTree).preorder ∧ Naming.name? .javaScript boundSource boundPlace = some "f" ∧
      Text.Trimmed "f" ∧
      (∃ d ∈ (ofRoot boundTree).preorder,
        (boundPlace ∈ d.ancestors ∨ ∃ above, boundPlace.parent? = some above ∧ above ∈ d.ancestors) ∧
          Text.trim (d.node.text boundSource) = "f") ∧
      (bound.boundaries (.ofRoot boundTree)).map (fun b => (b.name, b.parents)) =
        [(some "f", []), (some "f", ["f"])] ∧
      ∀ b ∈ bound.boundaries (.ofRoot boundTree),
        (∀ name ∈ b.name, Text.Trimmed name) ∧ ∀ parent ∈ b.parents, Text.Trimmed parent := by
  have member := mem_preorder_iff.mpr boundPlace_below
  have found : Naming.name? .javaScript boundSource boundPlace = some "f" := by decide +kernel
  obtain ⟨trees, records⟩ := names_are_trimmed_texts bound boundTree
  obtain ⟨trimmed, text⟩ := trees boundPlace member "f" found
  refine ⟨member, found, trimmed, text, ?_, records _⟩
  rw [boundaries_eq_records]
  decide +kernel

end Survey

end DeclSplit

import DeclSplit.Proofs.Boundary.Extent

/-!
The hierarchy of declarations in their records. The innermost parent of a record is the name of the
nearest kept node above its node that has a name. That node comes first in the walk, has the other
parents itself, and its range covers what is below it. So the records alone tell which declaration
each of them is in.
-/

namespace DeclSplit

open Cursor Documentation

namespace Cursor

theorem ancestors_of_through_eq {a : Cursor} {far : List Cursor} :
    ∀ {path : List Frame} {near : List Cursor}, through path = near ++ a :: far → a.ancestors = far
  | [], near, split => by simp [through] at split
  | frame :: path, [], split => by
    obtain ⟨rfl, rfl⟩ := List.cons.inj split
    rfl
  | frame :: path, b :: near, split => ancestors_of_through_eq (List.cons.inj split).2

/-- What comes after a node in the list of those above another is what is above that node. -/
theorem ancestorsWithin_of_split {a c d : Cursor} {near far : List Cursor}
    (split : ancestorsWithin c d = near ++ a :: far) : ancestorsWithin c a = far := by
  obtain ⟨nearer, rest, through, -, deep⟩ := List.filter_eq_append_iff.mp split
  obtain ⟨shallow, farther, rfl, -, -, rfl⟩ := List.filter_eq_cons_iff.mp deep
  rw [← List.append_assoc] at through
  rw [ancestorsWithin, ancestors_of_through_eq through]

end Cursor

namespace Survey
variable {s : Survey} {root : Node} {a c d : Cursor}

/-- The innermost of the names around a node is given by a node above it, and the others are the names
around that node. -/
theorem enclosing_eq_concat {outer : List String} {name : String}
    (names : s.enclosing c d = outer ++ [name]) :
    ∃ a ∈ ancestorsWithin c d, s.given a = some name ∧ s.enclosing c a = outer := by
  have nearest : (ancestorsWithin c d).filterMap s.given = name :: outer.reverse := by
    rw [enclosing, List.reverse_eq_iff] at names
    simpa using names
  obtain ⟨near, a, far, split, -, gives, others⟩ := List.filterMap_eq_cons_iff.mp nearest
  refine ⟨a, ?_, gives, ?_⟩
  · rw [split]
    exact List.mem_append_right _ List.mem_cons_self
  · rw [enclosing, ancestorsWithin_of_split split, others, List.reverse_reverse]

/-- A kept node above another comes before it in the walk. -/
theorem mem_before_of_above {before after : List Cursor} (split : s.kept c = before ++ d :: after)
    (kept : a ∈ s.kept c) (above : a ∈ d.ancestors) : a ∈ before := by
  have order := s.pairwise_kept c
  rw [split, List.pairwise_append, List.pairwise_cons] at order
  rw [split, List.mem_append, List.mem_cons] at kept
  rcases kept with first | rfl | later
  · exact first
  · exact absurd (depth_lt_of_mem_ancestors above) (Nat.lt_irrefl _)
  · rcases order.2.1.1 a later with below | left
    · exact absurd (depth_lt_of_mem_ancestors above) (Nat.lt_asymm (depth_lt_of_mem_ancestors below))
    · exact absurd (List.mem_cons_of_mem _ above) left.not_below

/-- A record with parents comes after a record that has the innermost of them as its name and the
others as its parents, and whose range covers its own. -/
theorem parents_recorded_before (language : Language) (source : String) (filter : Filter)
    (nested : root.Nested) (inside : c ∈ (ofRoot root).preorder) {before after : List Boundary}
    {b : Boundary} {outer : List String} {name : String}
    (split : (ofLanguage language source filter).boundaries c = before ++ b :: after)
    (parents : b.parents = outer ++ [name]) :
    ∃ a ∈ before, a.name = some name ∧ a.parents = outer ∧ a.Contains b := by
  have plain := ofLanguage_plain language source filter
  generalize ofLanguage language source filter = s at plain split
  rw [boundaries_eq_records] at split
  obtain ⟨ds, rest, keptSplit, rfl, tail⟩ := List.map_eq_append_iff.mp split
  obtain ⟨d, ds', rfl, rfl, -⟩ := List.map_eq_cons_iff.mp tail
  have hd : d ∈ s.kept c := by
    rw [keptSplit]
    exact List.mem_append_right _ List.mem_cons_self
  -- The node that gave the innermost name is kept, above `d` and below the start.
  obtain ⟨a, within, gives, others⟩ := enclosing_eq_concat parents
  obtain ⟨keeps, named⟩ := given_eq_some.mp gives
  obtain ⟨above, below⟩ := (mem_ancestorsWithin (mem_kept.mp hd).1).mp within
  have first := mem_before_of_above keptSplit (mem_kept.mpr ⟨below, keeps⟩) above
  refine ⟨s.record a (s.enclosing c a), List.mem_map_of_mem first, named, others, ?_⟩
  rw [Boundary.Contains, (record_start _ _ _).1, (record_start _ _ _).1]
  exact contains_of_above nested (below_of_mem_kept inside hd) above (plain.of_keeps keeps).1

end Survey

/-! ### A method in an exported class -/

/-- An exported class with a comment above it and a method in it. -/
def documentedSource : String := "// doc\nexport class A \x7b m() \x7b\x7d \x7d\n"

/-- The tree of `documentedSource`. -/
def documentedTree : Node :=
  ⟨"program", true, ⟨0, 33, 0, 2⟩, [],
    [.token "comment" true 0 6 0,
      ⟨"export_statement", true, ⟨7, 32, 1, 1⟩, [("declaration", 1)],
        [.token "export" false 7 13 1,
          ⟨"class_declaration", true, ⟨14, 32, 1, 1⟩, [("body", 2), ("name", 1)],
            [.token "class" false 14 19 1,
              .token "identifier" true 20 21 1,
              ⟨"class_body", true, ⟨22, 32, 1, 1⟩, [],
                [.token "\x7b" false 22 23 1,
                  ⟨"method_definition", true, ⟨24, 30, 1, 1⟩, [("body", 2), ("name", 0), ("parameters", 1)],
                    [.token "property_identifier" true 24 25 1,
                      ⟨"formal_parameters", true, ⟨25, 27, 1, 1⟩, [],
                        [.token "(" false 25 26 1, .token ")" false 26 27 1]⟩,
                      ⟨"statement_block", true, ⟨28, 30, 1, 1⟩, [],
                        [.token "\x7b" false 28 29 1, .token "\x7d" false 29 30 1]⟩]⟩,
                  .token "\x7d" false 31 32 1]⟩]⟩]⟩]⟩

namespace Survey

/-- The class, from the comment above the statement that exports it, and the method in it. -/
theorem documented_boundaries :
    (ofLanguage .javaScript documentedSource Filter.acceptAll).boundaries (.ofRoot documentedTree) =
      [⟨"class_declaration", [], some "A", 0, 32, "class A \x7b m() \x7b\x7d \x7d", "// doc", 1, 2⟩,
        ⟨"method_definition", ["A"], some "m", 24, 30, "m() \x7b\x7d", "", 2, 2⟩] := by
  rw [boundaries_eq_records]
  decide +kernel

theorem method_after_class : documentedTree.Nested ∧
    ∃ a b, (ofLanguage .javaScript documentedSource Filter.acceptAll).boundaries (.ofRoot documentedTree) =
        [a] ++ b :: [] ∧
      b.parents = [] ++ ["A"] ∧ ∃ found ∈ [a], found.name = some "A" ∧ found.parents = [] ∧ found.Contains b := by
  have nested : documentedTree.Nested := by decide +kernel
  exact ⟨nested, _, _, documented_boundaries, rfl,
    parents_recorded_before .javaScript documentedSource Filter.acceptAll nested
      (mem_preorder_iff.mpr .refl) documented_boundaries rfl⟩

end Survey

end DeclSplit

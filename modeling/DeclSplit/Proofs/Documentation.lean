import DeclSplit.Boundary
import DeclSplit.Proofs.Tree.Layout

/-!
Where the range of a declaration starts: at the topmost of the comments that document it, which stand
side by side before its anchor, or at the declaration itself.
-/

namespace DeclSplit

namespace Documentation

/-! ### Runs of comments -/

theorem extendRun_isPrefix (last : Node) (before : List Node) : extendRun last before <+: before := by
  fun_induction extendRun last before with
  | case1 => exact List.nil_prefix
  | case2 last next rest _ ih => exact (List.prefix_cons_inj next).mpr ih
  | case3 => exact List.nil_prefix

theorem commentRun_isPrefix (before : List Node) : commentRun before <+: before := by
  fun_cases commentRun before with
  | case1 => exact List.nil_prefix
  | case2 first rest _ => exact (List.prefix_cons_inj first).mpr (extendRun_isPrefix first rest)
  | case3 => exact List.nil_prefix

theorem isComment_of_mem_extendRun {n last : Node} {before : List Node} (h : n ∈ extendRun last before) :
    n.isComment = true := by
  fun_induction extendRun last before with
  | case1 => cases h
  | case2 last next rest fits ih =>
    rcases List.mem_cons.mp h with rfl | h
    · exact (Bool.and_eq_true_iff.mp fits).1
    · exact ih h
  | case3 => cases h

theorem isComment_of_mem_commentRun {n : Node} {before : List Node} (h : n ∈ commentRun before) :
    n.isComment = true := by
  fun_cases commentRun before with
  | case1 => cases h
  | case2 first rest comment =>
    rw [commentRun, if_pos comment] at h
    rcases List.mem_cons.mp h with rfl | h
    · exact comment
    · exact isComment_of_mem_extendRun h
  | case3 first rest code =>
    rw [commentRun, if_neg code] at h
    cases h

/-! ### The comments of a declaration -/

/-- The comments that document the declaration at a cursor, nearest first, with their surroundings. -/
def comments (language : Language) (c : Cursor) : List Cursor :=
  match DocFamily.ofLanguage language with
  | .adjacentComments =>
    (anchor c).siblingsBefore.take (commentRun (anchor c).preceding).length
  | .docstring | .unsupported => []

theorem comments_isPrefix (language : Language) (c : Cursor) :
    comments language c <+: (anchor c).siblingsBefore := by
  unfold comments
  split
  · exact List.take_prefix _ _
  · exact List.nil_prefix
  · exact List.nil_prefix

/-- Declarations with the same anchor have the same comments. -/
theorem comments_congr {language : Language} {c d : Cursor} (same : anchor c = anchor d) :
    comments language c = comments language d := by
  rw [comments, comments, same]

theorem map_node_comments {language : Language} (adjacent : DocFamily.ofLanguage language = .adjacentComments)
    (c : Cursor) : (comments language c).map (·.node) = commentRun (anchor c).preceding := by
  rw [comments, adjacent, List.map_take, Cursor.map_node_siblingsBefore]
  exact (List.prefix_iff_eq_take.mp (commentRun_isPrefix _)).symm

theorem isComment_of_mem_comments {language : Language} {c x : Cursor} (h : x ∈ comments language c) :
    x.node.isComment = true := by
  cases family : DocFamily.ofLanguage language with
  | adjacentComments =>
    have member : x.node ∈ _ := List.mem_map_of_mem h
    rw [map_node_comments family] at member
    exact isComment_of_mem_commentRun member
  | docstring => simp [comments, family] at h
  | unsupported => simp [comments, family] at h

theorem docstring_leading {source : String} {n : Node} {docs : Documentation}
    (h : docstring source n = some docs) : docs.leading = none := by
  simp only [docstring, Option.bind_eq_bind, Option.bind_eq_some_iff] at h
  obtain ⟨body, -, statement, -, h⟩ := h
  split at h
  · split at h
    · split at h
      · cases h
        rfl
      · cases h
    · cases h
  · cases h

/-- Documentation above a declaration starts where the topmost of its comments does. -/
theorem find?_leading (language : Language) (source : String) (c : Cursor) :
    (find? language source c).bind (·.leading) =
      (comments language c).getLast?.map fun top => ⟨top.node.span.startByte, top.node.span.startRow⟩ := by
  unfold find?
  cases family : DocFamily.ofLanguage language with
  | adjacentComments =>
    simp only [leadingComments, ← map_node_comments family, List.getLast?_map, Option.map_map]
    cases (comments language c).getLast? <;> rfl
  | docstring =>
    cases found : docstring source c.node with
    | none => simp [comments, family]
    | some docs => simp [comments, family, docstring_leading found]
  | unsupported => simp [comments, family]

/-! ### The anchor -/

theorem anchor_cases (c : Cursor) :
    anchor c = c ∨ c.parent? = some (anchor c) ∧ (anchor c).node.kind = exportKind := by
  unfold anchor
  split
  · rename_i above found
    split
    · rename_i exports
      exact Or.inr ⟨found, exports⟩
    · exact Or.inl rfl
  · exact Or.inl rfl

theorem anchor_of_parent {c p : Cursor} (found : c.parent? = some p) (exports : p.node.kind = exportKind) :
    anchor c = p := by
  simp [anchor, found, exports]

theorem anchor_mem_lineage (c : Cursor) : anchor c ∈ c.lineage := by
  rcases anchor_cases c with same | ⟨found, -⟩
  · rw [same]
    exact List.mem_cons_self
  · exact Cursor.parent_mem_lineage found

/-- What is above a declaration is its anchor or above its anchor. -/
theorem mem_lineage_anchor {a c : Cursor} (h : a ∈ c.ancestors) : a ∈ (anchor c).lineage := by
  rcases anchor_cases c with same | ⟨found, -⟩
  · rw [same]
    exact List.mem_cons_of_mem _ h
  · rw [Cursor.ancestors_of_parent found] at h
    exact h

/-- What is above a declaration and exports nothing is above its anchor, too. -/
theorem mem_ancestors_anchor {a c : Cursor} (h : a ∈ c.ancestors) (plain : a.node.kind ≠ exportKind) :
    a ∈ (anchor c).ancestors := by
  rcases anchor_cases c with same | ⟨found, exports⟩
  · rw [same]
    exact h
  · rcases List.mem_cons.mp (mem_lineage_anchor h) with rfl | h
    · exact absurd exports plain
    · exact h

end Documentation

end DeclSplit

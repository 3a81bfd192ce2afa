import DeclSplit.Proofs.Boundary.Walk
import DeclSplit.Proofs.Documentation

/-!
The ranges of declarations. A range is pulled back over the comments above the declaration, or over
those above the statement that exports it, so it is no span of the tree. Still two ranges never overlap
in part: what is below a declaration stays inside its range, and of what is to the left of it the range
takes in all or nothing.
-/

namespace DeclSplit

open Cursor Documentation

namespace Boundary

/-- The range of `a` covers that of `b`. -/
def Contains (a b : Boundary) : Prop :=
  a.startOffset ≤ b.startOffset ∧ b.endOffset ≤ a.endOffset

/-- The ranges of `a` and `b` have no byte in common. -/
def Disjoint (a b : Boundary) : Prop :=
  a.endOffset ≤ b.startOffset ∨ b.endOffset ≤ a.startOffset

/-- The ranges of `a` and `b` do not overlap in part. -/
def Laminar (a b : Boundary) : Prop :=
  a.Disjoint b ∨ a.Contains b ∨ b.Contains a

instance : Std.Symm Laminar where
  symm a b h := by
    rcases h with apart | covers | covers
    · exact Or.inl apart.symm
    · exact Or.inr (Or.inr covers)
    · exact Or.inr (Or.inl covers)

end Boundary

namespace Survey

/-- The node at which the range of a declaration starts: the topmost of its comments, or its own. -/
def top (s : Survey) (c : Cursor) : Cursor :=
  (comments s.language c).getLast?.getD c

/-- Where the range of a declaration starts. -/
def firstByte (s : Survey) (c : Cursor) : Nat := (s.top c).node.span.startByte

theorem record_start (s : Survey) (c : Cursor) (parents : List String) :
    (s.record c parents).startOffset = s.firstByte c ∧
      (s.record c parents).startLine = (s.top c).node.span.startRow + 1 := by
  simp only [record, find?_leading, firstByte, top]
  cases (comments s.language c).getLast? <;> exact ⟨rfl, rfl⟩

@[simp] theorem record_endOffset (s : Survey) (c : Cursor) (parents : List String) :
    (s.record c parents).endOffset = c.node.span.endByte := rfl

theorem top_of_no_comments {s : Survey} {c : Cursor} (none : comments s.language c = []) : s.top c = c := by
  simp [top, none]

theorem top_mem_comments {s : Survey} {c : Cursor} (some : comments s.language c ≠ []) :
    s.top c ∈ comments s.language c := by
  rw [top, List.getLast?_eq_some_getLast some]
  exact List.getLast_mem some

theorem top_congr {s : Survey} {c d : Cursor} (same : comments s.language c = comments s.language d)
    (some : comments s.language d ≠ []) : s.top c = s.top d := by
  rw [top, top, same, List.getLast?_eq_some_getLast some, Option.getD_some, Option.getD_some]

/-- None of the kinds looked for is that of a comment or of an exporting statement. -/
def Plain (s : Survey) : Prop :=
  ∀ kind ∈ s.kinds, kind ≠ exportKind ∧ Text.occursIn "comment".toList kind.toList = false

theorem ofLanguage_plain (language : Language) (source : String) (filter : Filter) :
    (ofLanguage language source filter).Plain := by
  intro kind member
  have all : (language.declarationKinds.all fun kind =>
      kind != exportKind && !Text.occursIn "comment".toList kind.toList) = true := by
    cases language <;> cbv
  simpa using List.all_eq_true.mp all kind member

theorem Plain.of_keeps {s : Survey} {c : Cursor} (plain : s.Plain) (kept : s.keeps c = true) :
    c.node.kind ≠ exportKind ∧ c.node.isComment = false := by
  simp only [keeps, Bool.and_eq_true, List.contains_eq_mem, decide_eq_true_eq] at kept
  exact plain _ kept.1.2

/-! ### Where ranges start -/

section Ranges
variable {s : Survey} {root : Node} {a b c x y t : Cursor}

theorem below_comment (hc : Below (.ofRoot root) c) (ht : t ∈ comments s.language c) :
    Below (.ofRoot root) t :=
  (hc.above (anchor_mem_lineage c)).sibling ((comments_isPrefix _ _).subset ht)

theorem below_top (hc : Below (.ofRoot root) c) : Below (.ofRoot root) (s.top c) := by
  by_cases some : comments s.language c = []
  · rw [top_of_no_comments some]
    exact hc
  · exact below_comment hc (top_mem_comments some)

/-- Comments end before the anchor starts, hence before the declaration does. -/
theorem comment_end_le (nested : root.Nested) (hc : Below (.ofRoot root) c)
    (ht : t ∈ comments s.language c) :
    t.node.span.endByte ≤ (anchor c).node.span.startByte ∧ t.node.span.endByte ≤ c.node.span.startByte := by
  have anchored := anchor_mem_lineage c
  have before := (nested.siblings_apart (hc.above anchored)).1 t ((comments_isPrefix _ _).subset ht)
  exact ⟨before, Nat.le_trans before (nested.span_le hc anchored).1⟩

/-- A range starts no later than any comment of its declaration. -/
theorem firstByte_le_comment (nested : root.Nested) (hc : Below (.ofRoot root) c)
    (ht : t ∈ comments s.language c) : s.firstByte c ≤ t.node.span.startByte := by
  obtain ⟨nearer, shape⟩ : ∃ nearer, comments s.language c = nearer ++ [s.top c] := by
    have some : comments s.language c ≠ [] := List.ne_nil_of_mem ht
    refine ⟨(comments s.language c).dropLast, ?_⟩
    rw [top, List.getLast?_eq_some_getLast some, Option.getD_some, List.dropLast_concat_getLast some]
  rw [shape] at ht
  rcases List.mem_append.mp ht with near | last
  · have apart := (nested.siblings_apart (hc.above (anchor_mem_lineage c))).2
    have pairs := apart.sublist (comments_isPrefix s.language c).sublist
    rw [shape, List.pairwise_append] at pairs
    have starts := (nested.laidOut (below_top (s := s) hc)).ordered
    exact Nat.le_trans starts (pairs.2.2 t near _ List.mem_cons_self)
  · exact Nat.le_of_eq (by rw [firstByte, List.mem_singleton.mp last])

theorem firstByte_le_start (nested : root.Nested) (hc : Below (.ofRoot root) c) :
    s.firstByte c ≤ c.node.span.startByte := by
  by_cases some : comments s.language c = []
  · exact Nat.le_of_eq (by rw [firstByte, top_of_no_comments some])
  · have member := top_mem_comments some
    have starts := (nested.laidOut (below_top (s := s) hc)).ordered
    exact Nat.le_trans starts (comment_end_le nested hc member).2

/-- What is above the anchor of a declaration starts no later than its range. -/
theorem start_le_firstByte (nested : root.Nested) (hc : Below (.ofRoot root) c)
    (ha : a ∈ (anchor c).ancestors) : a.node.span.startByte ≤ s.firstByte c := by
  by_cases some : comments s.language c = []
  · rw [firstByte, top_of_no_comments some]
    exact (nested.span_le hc (lineage_trans (List.mem_cons_of_mem _ ha) (anchor_mem_lineage c))).1
  · have member := top_mem_comments some
    have above : a ∈ (s.top c).ancestors := by
      rw [ancestors_eq_of_mem_siblingsBefore ((comments_isPrefix _ _).subset member)]
      exact ha
    exact (nested.span_le (below_top hc) (List.mem_cons_of_mem _ above)).1

/-! ### Two ranges -/

/-- What is below a declaration has its range inside that of the declaration. -/
theorem contains_of_above (nested : root.Nested) (hb : Below (.ofRoot root) b) (above : a ∈ b.ancestors)
    (plain : a.node.kind ≠ exportKind) :
    s.firstByte a ≤ s.firstByte b ∧ b.node.span.endByte ≤ a.node.span.endByte := by
  have ha := hb.above (List.mem_cons_of_mem _ above)
  refine ⟨?_, (nested.span_le hb (List.mem_cons_of_mem _ above)).2⟩
  exact Nat.le_trans (firstByte_le_start nested ha)
    (start_le_firstByte nested hb (mem_ancestors_anchor above plain))

/-- The range of `b` is pulled back over `a`: there are comments above `b`, and `a` lies in one of them
or in the statement that exports `b`. -/
def Reaches (s : Survey) (b a : Cursor) : Prop :=
  (∃ t ∈ comments s.language b, t ∈ a.lineage) ∨
    comments s.language b ≠ [] ∧ ∃ p ∈ a.ancestors, b.parent? = some p ∧ p.node.kind = exportKind

/-- A sibling to the left of the anchor is one of the comments or ends before they start. -/
theorem comment_or_end_le (nested : root.Nested) (hb : Below (.ofRoot root) b)
    (some : comments s.language b ≠ []) (sibling : x ∈ (anchor b).siblingsBefore) :
    x ∈ comments s.language b ∨ x.node.span.endByte ≤ s.firstByte b := by
  have apart := (nested.siblings_apart (hb.above (anchor_mem_lineage b))).2
  obtain ⟨farther, shape⟩ := comments_isPrefix s.language b
  rw [← shape] at sibling apart
  rcases List.mem_append.mp sibling with near | far
  · exact Or.inl near
  · exact Or.inr ((List.pairwise_append.mp apart).2.2 _ (top_mem_comments some) x far)

/-- A range that is not pulled back over what is to the left of its declaration starts after it. -/
theorem reaches_or_end_le (nested : root.Nested) (ha : Below (.ofRoot root) a) (hb : Below (.ofRoot root) b)
    (left : LeftOf a b) : s.Reaches b a ∨ a.node.span.endByte ≤ s.firstByte b := by
  by_cases some : comments s.language b = []
  · rw [firstByte, top_of_no_comments some]
    exact Or.inr (nested.end_le_of_leftOf ha hb left)
  obtain ⟨x, hx, y, hy, sibling⟩ := left
  have ends := (nested.span_le ha hx).2
  -- A sibling of the anchor is a comment of `b`, or it ends before the comments start.
  have beside : y = anchor b → s.Reaches b a ∨ a.node.span.endByte ≤ s.firstByte b := by
    rintro rfl
    rcases comment_or_end_le nested hb some sibling with comment | before
    · exact Or.inl (Or.inl ⟨x, comment, hx⟩)
    · exact Or.inr (Nat.le_trans ends before)
  rcases List.mem_cons.mp hy with rfl | above
  · rcases anchor_cases y with same | ⟨found, exports⟩
    · exact beside same.symm
    · -- The statement that exports `b` is above its siblings, and so above `a`.
      have shared : anchor y ∈ x.ancestors := by
        rw [ancestors_eq_of_mem_siblingsBefore sibling, ancestors_of_parent found]
        exact List.mem_cons_self
      exact Or.inl (Or.inr ⟨some, _, ancestors_of_mem_lineage shared hx, found, exports⟩)
  · rcases List.mem_cons.mp (mem_lineage_anchor above) with same | above
    · exact beside same
    · have starts := start_le_firstByte (s := s) nested hb above
      have apart := (nested.siblings_apart (hb.above hy)).1 x sibling
      exact Or.inr (by omega)

/-- A range that is pulled back over a declaration to the left covers the range of that. -/
theorem contains_of_reaches (nested : root.Nested) (ha : Below (.ofRoot root) a)
    (hb : Below (.ofRoot root) b) (left : LeftOf a b) (comment : a.node.isComment = false)
    (reaches : s.Reaches b a) :
    s.firstByte b ≤ s.firstByte a ∧ a.node.span.endByte ≤ b.node.span.endByte := by
  have ordered := (nested.laidOut hb).ordered
  have before := nested.end_le_of_leftOf ha hb left
  refine ⟨?_, by omega⟩
  rcases reaches with ⟨t, ht, hta⟩ | ⟨some, p, hp, found, exports⟩
  · -- `a` is below the comment `t`, and a comment exports nothing.
    have isComment := isComment_of_mem_comments ht
    have above : t ∈ a.ancestors := by
      rcases List.mem_cons.mp hta with rfl | above
      · rw [isComment] at comment
        cases comment
      · exact above
    have plain : t.node.kind ≠ exportKind := by
      intro same
      rw [Node.isComment, same] at isComment
      revert isComment
      decide
    exact Nat.le_trans (firstByte_le_comment nested hb ht)
      (start_le_firstByte nested ha (mem_ancestors_anchor above plain))
  · have anchored : anchor b = p := anchor_of_parent found exports
    rcases List.mem_cons.mp (mem_lineage_anchor hp) with same | above
    · -- Both are exported by `p` and have the same comments.
      have shared : comments s.language a = comments s.language b := comments_congr (same.symm.trans anchored.symm)
      exact Nat.le_of_eq (by rw [firstByte, firstByte, top_congr shared some])
    · have member := top_mem_comments some
      have starts := (nested.laidOut (below_top (s := s) hb)).ordered
      have ends := (comment_end_le nested hb member).1
      rw [anchored] at ends
      have := start_le_firstByte (s := s) nested ha above
      exact Nat.le_trans starts (Nat.le_trans ends this)

end Ranges

/-! ### All ranges -/

section Outcome
variable {s : Survey} {root : Node} {c : Cursor}

theorem pairwise_boundaries {R : Boundary → Boundary → Prop} :
    (s.boundaries c).Pairwise R ↔ (s.kept c).Pairwise fun a b =>
      R (s.record a (s.enclosing c a)) (s.record b (s.enclosing c b)) := by
  rw [boundaries_eq_records, List.pairwise_map]

theorem below_of_mem_kept (inside : c ∈ (ofRoot root).preorder) {d : Cursor} (kept : d ∈ s.kept c) :
    Below (.ofRoot root) d :=
  (mem_preorder_iff.mp inside).trans (mem_kept.mp kept).1

/-- The ranges of any two declarations of a language are disjoint, or one of them covers the other. -/
theorem boundaries_nest_or_disjoint (language : Language) (source : String) (filter : Filter)
    (nested : root.Nested) (inside : c ∈ (ofRoot root).preorder) :
    ∀ a ∈ (ofLanguage language source filter).boundaries c,
      ∀ b ∈ (ofLanguage language source filter).boundaries c, a.Laminar b := by
  have plain := ofLanguage_plain language source filter
  generalize ofLanguage language source filter = s at plain
  intro a ha b hb
  refine List.Pairwise.forall_of_forall (fun a _ => ?_) (pairwise_boundaries.mpr ?_) ha hb
  · exact Or.inr (Or.inl ⟨Nat.le_refl _, Nat.le_refl _⟩)
  · refine (pairwise_kept s c).imp_of_mem fun {a b} kepta keptb order => ?_
    have ha := below_of_mem_kept inside kepta
    have hb := below_of_mem_kept inside keptb
    obtain ⟨exports, comment⟩ := plain.of_keeps (mem_kept.mp kepta).2
    simp only [Boundary.Laminar, Boundary.Disjoint, Boundary.Contains, (record_start _ _ _).1, record_endOffset]
    rcases order with above | left
    · exact Or.inr (Or.inl (contains_of_above nested hb above exports))
    · rcases reaches_or_end_le nested ha hb left with reaches | apart
      · exact Or.inr (Or.inr (contains_of_reaches nested ha hb left comment reaches))
      · exact Or.inl (Or.inl apart)

end Outcome

end Survey

/-! ### A class behind a decorator -/

/-- An exported class with a comment above it and a decorator that takes a function. -/
def decoratedSource : String := "// doc\n@dec(() => 1)\nexport class E \x7b\x7d\n"

/-- The tree of `decoratedSource`. The decorator stands before the class in the exporting statement. -/
def decoratedTree : Node :=
  ⟨"program", true, ⟨0, 39, 0, 3⟩, [],
    [.token "comment" true 0 6 0,
      ⟨"export_statement", true, ⟨7, 38, 1, 2⟩, [("declaration", 2), ("decorator", 0)],
        [⟨"decorator", true, ⟨7, 20, 1, 1⟩, [],
            [.token "@" false 7 8 1,
              ⟨"call_expression", true, ⟨8, 20, 1, 1⟩, [("arguments", 1), ("function", 0)],
                [.token "identifier" true 8 11 1,
                  ⟨"arguments", true, ⟨11, 20, 1, 1⟩, [],
                    [.token "(" false 11 12 1,
                      ⟨"arrow_function", true, ⟨12, 19, 1, 1⟩, [("body", 2), ("parameters", 0)],
                        [⟨"formal_parameters", true, ⟨12, 14, 1, 1⟩, [],
                            [.token "(" false 12 13 1, .token ")" false 13 14 1]⟩,
                          .token "=>" false 15 17 1,
                          .token "number" true 18 19 1]⟩,
                      .token ")" false 19 20 1]⟩]⟩]⟩,
          .token "export" false 21 27 2,
          ⟨"class_declaration", true, ⟨28, 38, 2, 2⟩, [("body", 2), ("name", 1)],
            [.token "class" false 28 33 2,
              .token "identifier" true 34 35 2,
              ⟨"class_body", true, ⟨36, 38, 2, 2⟩, [],
                [.token "\x7b" false 36 37 2, .token "\x7d" false 37 38 2]⟩]⟩]⟩]⟩

theorem decorated_wellFormed : decoratedTree.WellFormed decoratedSource := by decide +kernel

namespace Survey

theorem decorated_nest_or_disjoint : decoratedTree.Nested ∧
    ∀ a ∈ (ofLanguage .javaScript decoratedSource Filter.acceptAll).boundaries (.ofRoot decoratedTree),
      ∀ b ∈ (ofLanguage .javaScript decoratedSource Filter.acceptAll).boundaries (.ofRoot decoratedTree),
        a.Laminar b := by
  have nested : decoratedTree.Nested := decorated_wellFormed.1
  exact ⟨nested, boundaries_nest_or_disjoint .javaScript decoratedSource Filter.acceptAll nested
    (mem_preorder_iff.mpr .refl)⟩

end Survey

end DeclSplit

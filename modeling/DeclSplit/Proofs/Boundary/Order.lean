import DeclSplit.Proofs.Boundary.Extent

/-!
The order of declarations and their ranges. A declaration comes before what is below it, but its range
may be pulled back over declarations that come before it: those in its comments, and those that stand
before it in the statement that exports it. Containers come first exactly when there are no such
declarations, apart from empty ranges.
-/

namespace DeclSplit

open Cursor Documentation

/-- The range of `a` covers that of `b` and is longer. -/
def Boundary.StrictlyContains (a b : Boundary) : Prop :=
  a.Contains b ∧ b.endOffset - b.startOffset < a.endOffset - a.startOffset

namespace Survey

/-- The ranges of `a` and `b` differ, and that of `b` is pulled back over `a`, or that of `a` is empty
and lies where that of `b` starts. -/
def Overtakes (s : Survey) (b a : Cursor) : Prop :=
  (s.Reaches b a ∨ s.firstByte a = a.node.span.endByte ∧ s.firstByte a = s.firstByte b) ∧
    (s.firstByte a ≠ s.firstByte b ∨ a.node.span.endByte ≠ b.node.span.endByte)

variable {s : Survey} {root : Node} {a b c : Cursor}

/-- The statement that exports a declaration is not above what is above the declaration. -/
theorem parent_not_above {p : Cursor} (above : a ∈ b.ancestors) (found : b.parent? = some p) :
    p ∉ a.ancestors := by
  intro h
  rw [ancestors_of_parent found] at above
  rcases List.mem_cons.mp above with rfl | above
  · exact Nat.lt_irrefl _ (depth_lt_of_mem_ancestors h)
  · exact Nat.lt_asymm (depth_lt_of_mem_ancestors h) (depth_lt_of_mem_ancestors above)

/-- No range is pulled back over what is above its declaration. -/
theorem not_reaches_of_above (above : a ∈ b.ancestors) : ¬s.Reaches b a := by
  rintro (⟨t, ht, hta⟩ | ⟨-, p, hp, found, -⟩)
  · have sibling := (comments_isPrefix _ _).subset ht
    -- The comment would be on the way up from `b`, as the anchor is.
    have htb : t ∈ b.lineage := lineage_trans hta (List.mem_cons_of_mem _ above)
    exact not_mem_lineage_of_sibling sibling htb (anchor_mem_lineage b)
  · exact parent_not_above above found hp

theorem strictlyContains_iff_overtakes (nested : root.Nested) (ha : Below (.ofRoot root) a)
    (hb : Below (.ofRoot root) b) (exports : a.node.kind ≠ exportKind) (comment : a.node.isComment = false)
    (order : a ∈ b.ancestors ∨ LeftOf a b) (above below : List String) :
    (s.record b above).StrictlyContains (s.record a below) ↔ s.Overtakes b a := by
  have orderedA := Nat.le_trans (firstByte_le_start (s := s) nested ha) (nested.laidOut ha).ordered
  have orderedB := Nat.le_trans (firstByte_le_start (s := s) nested hb) (nested.laidOut hb).ordered
  simp only [Boundary.StrictlyContains, Boundary.Contains, (record_start _ _ _).1, record_endOffset, Overtakes]
  rcases order with above | left
  · have covers := contains_of_above (s := s) nested hb above exports
    have reaches := not_reaches_of_above (s := s) above
    simp only [reaches, false_or]
    omega
  · by_cases reaches : s.Reaches b a
    · have covers := contains_of_reaches nested ha hb left comment reaches
      simp only [reaches, true_or, true_and]
      omega
    · have apart := (reaches_or_end_le nested ha hb left).resolve_left reaches
      have ends := nested.end_le_of_leftOf ha hb left
      have ordered := (nested.laidOut hb).ordered
      simp only [reaches, false_or]
      omega

/-- The declarations of a language come in an order in which no range strictly covers an earlier one
exactly when no kept node overtakes one that comes before it. -/
theorem containers_first_iff (language : Language) (source : String) (filter : Filter)
    (nested : root.Nested) (inside : c ∈ (ofRoot root).preorder) :
    (((ofLanguage language source filter).boundaries c).Pairwise fun earlier later =>
        ¬later.StrictlyContains earlier) ↔
      ((ofLanguage language source filter).kept c).Pairwise fun a b =>
        ¬(ofLanguage language source filter).Overtakes b a := by
  have plain := ofLanguage_plain language source filter
  generalize ofLanguage language source filter = s at plain
  rw [pairwise_boundaries]
  have exact_pairs : (s.kept c).Pairwise fun a b => ∀ above below,
      (s.record b above).StrictlyContains (s.record a below) ↔ s.Overtakes b a := by
    refine (pairwise_kept s c).imp_of_mem fun {a b} kepta keptb order => ?_
    obtain ⟨exports, comment⟩ := plain.of_keeps (mem_kept.mp kepta).2
    exact strictlyContains_iff_overtakes nested (below_of_mem_kept inside kepta)
      (below_of_mem_kept inside keptb) exports comment order
  constructor
  · intro first
    exact (first.and exact_pairs).imp fun {a b} h overtakes => h.1 ((h.2 _ _).mpr overtakes)
  · intro first
    exact (first.and exact_pairs).imp fun {a b} h strict => h.1 ((h.2 _ _).mp strict)

/-- The survey of all declarations of `decoratedSource`. -/
def decorated : Survey := ofLanguage .javaScript decoratedSource Filter.acceptAll

/-- The function in the decorator comes first, but the class starts at the comment above both. -/
theorem decorated_ranges :
    (decorated.boundaries (.ofRoot decoratedTree)).map (fun b => (b.startOffset, b.endOffset)) =
      [(12, 19), (0, 38)] := by
  rw [boundaries_eq_records, List.map_map]
  decide +kernel

theorem decorated_not_pairwise :
    ¬(decorated.boundaries (.ofRoot decoratedTree)).Pairwise fun earlier later =>
      ¬later.StrictlyContains earlier := by
  intro first
  have pairs : ((decorated.boundaries (.ofRoot decoratedTree)).map fun b =>
      (b.startOffset, b.endOffset)).Pairwise fun earlier later =>
        ¬((later.1 ≤ earlier.1 ∧ earlier.2 ≤ later.2) ∧ earlier.2 - earlier.1 < later.2 - later.1) :=
    List.pairwise_map.mpr first
  rw [decorated_ranges] at pairs
  revert pairs
  decide

/-- The class overtakes the function in its decorator. -/
theorem decorated_overtaken : decoratedTree.Nested ∧
    ¬(decorated.kept (.ofRoot decoratedTree)).Pairwise fun a b => ¬decorated.Overtakes b a := by
  have nested : decoratedTree.Nested := decorated_wellFormed.1
  refine ⟨nested, fun first => decorated_not_pairwise ?_⟩
  exact (containers_first_iff .javaScript decoratedSource Filter.acceptAll nested
    (mem_preorder_iff.mpr .refl)).mpr first

/-- A range strictly covers an earlier one: containers do not come first in every well-formed tree. -/
theorem container_after_contained : decoratedTree.WellFormed decoratedSource ∧
    ¬((ofLanguage .javaScript decoratedSource Filter.acceptAll).boundaries
      (.ofRoot decoratedTree)).Pairwise fun earlier later => ¬later.StrictlyContains earlier :=
  ⟨decorated_wellFormed, decorated_not_pairwise⟩

end Survey

end DeclSplit

import DeclSplit.Proofs.Text.Slice
import DeclSplit.Proofs.Tree.Ancestry

/-!
Trees whose spans nest. The children of a node lie in its span, one after the other, so a node covers
everything below it, and what is to the left of a node ends before it starts. A tree that fits its
source besides has its spans between characters, on the rows of the source.
-/

namespace DeclSplit

/-- The span of a node is in order, and its children lie in it one after the other. -/
structure Node.LaidOut (n : Node) : Prop where
  ordered : n.span.startByte ≤ n.span.endByte
  inside : ∀ child ∈ n.children,
    n.span.startByte ≤ child.span.startByte ∧ child.span.endByte ≤ n.span.endByte
  apart : n.children.Pairwise fun a b => a.span.endByte ≤ b.span.startByte

instance (n : Node) : Decidable n.LaidOut :=
  decidable_of_iff
    (n.span.startByte ≤ n.span.endByte ∧
      (∀ child ∈ n.children,
        n.span.startByte ≤ child.span.startByte ∧ child.span.endByte ≤ n.span.endByte) ∧
      n.children.Pairwise fun a b => a.span.endByte ≤ b.span.startByte)
    ⟨fun ⟨ordered, inside, apart⟩ => ⟨ordered, inside, apart⟩,
      fun ⟨ordered, inside, apart⟩ => ⟨ordered, inside, apart⟩⟩

/-- All nodes of a tree are laid out. -/
def Node.Nested (root : Node) : Prop :=
  ∀ d ∈ (Cursor.ofRoot root).preorder, d.node.LaidOut

instance (root : Node) : Decidable root.Nested :=
  inferInstanceAs (Decidable (∀ d ∈ (Cursor.ofRoot root).preorder, d.node.LaidOut))

/-- A node starts and ends between characters of the source, on the rows that its line feeds count. -/
structure Node.Fits (source : String) (n : Node) : Prop where
  starts : Text.IsCut source n.span.startByte
  ends : Text.IsCut source n.span.endByte
  startRow : n.span.startRow = Text.newlinesBefore source n.span.startByte
  endRow : n.span.endRow = Text.newlinesBefore source n.span.endByte

instance (source : String) (n : Node) : Decidable (n.Fits source) :=
  decidable_of_iff
    (Text.IsCut source n.span.startByte ∧ Text.IsCut source n.span.endByte ∧
      n.span.startRow = Text.newlinesBefore source n.span.startByte ∧
      n.span.endRow = Text.newlinesBefore source n.span.endByte)
    ⟨fun ⟨starts, ends, startRow, endRow⟩ => ⟨starts, ends, startRow, endRow⟩,
      fun ⟨starts, ends, startRow, endRow⟩ => ⟨starts, ends, startRow, endRow⟩⟩

/-- The spans of a tree nest, and all its nodes fit the source. -/
def Node.WellFormed (source : String) (root : Node) : Prop :=
  root.Nested ∧ ∀ d ∈ (Cursor.ofRoot root).preorder, d.node.Fits source

instance (source : String) (root : Node) : Decidable (root.WellFormed source) :=
  inferInstanceAs (Decidable (_ ∧ ∀ d ∈ (Cursor.ofRoot root).preorder, d.node.Fits source))

/-- A node without children on one row. -/
def Node.token (kind : String) (named : Bool) (start stop row : Nat) : Node :=
  ⟨kind, named, ⟨start, stop, row, row⟩, [], []⟩

namespace Cursor
variable {root : Node} {a d x y : Cursor}

theorem Below.above (h : Below (.ofRoot root) d) (ha : a ∈ d.lineage) : Below (.ofRoot root) a :=
  (h.of_mem_lineage ha (Nat.zero_le _)).1

theorem Below.sibling (h : Below (.ofRoot root) y) (hx : x ∈ y.siblingsBefore) : Below (.ofRoot root) x := by
  rcases h.cases_tail with same | ⟨p, h, child⟩
  · rw [same] at hx
    cases hx
  · exact h.tail (child.sibling hx)

end Cursor

namespace Node.Nested
open Cursor
variable {root : Node} {a b d x y : Cursor}

theorem laidOut (nested : root.Nested) (h : Below (.ofRoot root) d) : d.node.LaidOut :=
  nested d (mem_preorder_iff.mpr h)

theorem span_below (nested : root.Nested) (ha : Below (.ofRoot root) a) (h : Below a d) :
    a.node.span.startByte ≤ d.node.span.startByte ∧ d.node.span.endByte ≤ a.node.span.endByte := by
  induction h with
  | refl => exact ⟨Nat.le_refl _, Nat.le_refl _⟩
  | tail h child ih =>
    obtain ⟨starts, ends⟩ := (nested.laidOut (ha.trans h)).inside _ child.mem_children
    exact ⟨Nat.le_trans ih.1 starts, Nat.le_trans ends ih.2⟩

/-- A node covers what is below it. -/
theorem span_le (nested : root.Nested) (h : Below (.ofRoot root) d) (ha : a ∈ d.lineage) :
    a.node.span.startByte ≤ d.node.span.startByte ∧ d.node.span.endByte ≤ a.node.span.endByte := by
  obtain ⟨hra, had⟩ := h.of_mem_lineage ha (Nat.zero_le _)
  exact nested.span_below hra had

/-- Siblings to the left end before a node starts, and each before the next nearer one. -/
theorem siblings_apart (nested : root.Nested) (h : Below (.ofRoot root) y) :
    (∀ x ∈ y.siblingsBefore, x.node.span.endByte ≤ y.node.span.startByte) ∧
      y.siblingsBefore.Pairwise fun near far => far.node.span.endByte ≤ near.node.span.startByte := by
  rcases h.cases_tail with same | ⟨p, hp, ⟨split⟩⟩
  · rw [same]
    exact ⟨by simp [siblingsBefore, ofRoot], by simp [siblingsBefore, ofRoot]⟩
  · rename_i before after child
    have apart := (nested.laidOut hp).apart
    rw [split, List.pairwise_append, List.pairwise_reverse] at apart
    obtain ⟨among, -, across⟩ := apart
    refine ⟨fun x hx => ?_, ?_⟩
    · have member : x.node ∈ _ := List.mem_map_of_mem hx
      rw [map_node_siblingsBefore] at member
      exact across _ (List.mem_reverse.mpr member) _ List.mem_cons_self
    · have nodes : before = _ := (map_node_siblingsBefore ⟨child, ⟨p.node, before⟩ :: p.path⟩).symm
      rw [nodes] at among
      exact List.pairwise_map.mp among

/-- What is to the left of a node ends before the node starts. -/
theorem end_le_of_leftOf (nested : root.Nested) (ha : Below (.ofRoot root) a) (hb : Below (.ofRoot root) b)
    (left : LeftOf a b) : a.node.span.endByte ≤ b.node.span.startByte := by
  obtain ⟨x, hx, y, hy, sibling⟩ := left
  calc a.node.span.endByte ≤ x.node.span.endByte := (nested.span_le ha hx).2
    _ ≤ y.node.span.startByte := (nested.siblings_apart (hb.above hy)).1 x sibling
    _ ≤ b.node.span.startByte := (nested.span_le hb hy).1

end Node.Nested

end DeclSplit

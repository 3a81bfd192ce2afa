import DeclSplit.Tree.Cursor
import Mathlib.Data.List.Pairwise
import Mathlib.Logic.Relation

/-!
Above, below and beside in a tree. The nodes below a cursor are those that steps from a node to one of
its children lead to, and the pre-order lists exactly these. Of two nodes in the pre-order, the first
is above the second, or the two lie below siblings and it comes first among them.
-/

namespace DeclSplit.Cursor

/-! ### The nodes above a node -/

/-- The number of steps from the root. -/
def depth (c : Cursor) : Nat := c.path.length

/-- The nodes that a path leads through, the last one first. -/
def through : List Frame → List Cursor
  | [] => []
  | frame :: path => ⟨frame.parent, path⟩ :: through path

/-- The nodes above a node, nearest first. -/
def ancestors (c : Cursor) : List Cursor := through c.path

/-- A node and the nodes above it, nearest first. -/
def lineage (c : Cursor) : List Cursor := c :: c.ancestors

theorem ancestors_of_parent {c p : Cursor} (found : c.parent? = some p) : c.ancestors = p.lineage := by
  unfold parent? at found
  split at found
  · cases found
  · rename_i frame path shape
    obtain rfl := Option.some.inj found
    simp only [ancestors, shape, through, lineage]

theorem parent_mem_lineage {c p : Cursor} (found : c.parent? = some p) : p ∈ c.lineage := by
  rw [lineage, ancestors_of_parent found]
  exact List.mem_cons_of_mem _ List.mem_cons_self

theorem depth_lt_of_mem_through {a : Cursor} : ∀ {path : List Frame}, a ∈ through path → a.depth < path.length
  | [], h => by cases h
  | frame :: path, h => by
    rcases List.mem_cons.mp h with rfl | h
    · exact Nat.lt_succ_self _
    · exact Nat.lt_succ_of_lt (depth_lt_of_mem_through h)

theorem depth_lt_of_mem_ancestors {a c : Cursor} (h : a ∈ c.ancestors) : a.depth < c.depth :=
  depth_lt_of_mem_through h

/-- What is above a node that is above another is above that other, too. -/
theorem ancestors_subset_of_mem_through {a : Cursor} : ∀ {path : List Frame}, a ∈ through path →
    a.ancestors ⊆ through path
  | [], h => by cases h
  | frame :: path, h => by
    intro b hb
    rcases List.mem_cons.mp h with rfl | h
    · exact List.mem_cons_of_mem _ hb
    · exact List.mem_cons_of_mem _ (ancestors_subset_of_mem_through h hb)

theorem ancestors_trans {a b c : Cursor} (hab : a ∈ b.ancestors) (hbc : b ∈ c.ancestors) : a ∈ c.ancestors :=
  ancestors_subset_of_mem_through hbc hab

theorem ancestors_of_mem_lineage {a b c : Cursor} (hab : a ∈ b.ancestors) (hbc : b ∈ c.lineage) :
    a ∈ c.ancestors := by
  rcases List.mem_cons.mp hbc with rfl | hbc
  · exact hab
  · exact ancestors_trans hab hbc

theorem lineage_trans {a b c : Cursor} (hab : a ∈ b.lineage) (hbc : b ∈ c.lineage) : a ∈ c.lineage := by
  rcases List.mem_cons.mp hab with rfl | hab
  · exact hbc
  · exact List.mem_cons_of_mem _ (ancestors_of_mem_lineage hab hbc)

theorem eq_of_mem_through {a b : Cursor} : ∀ {path : List Frame}, a ∈ through path → b ∈ through path →
    a.depth = b.depth → a = b
  | [], ha, _, _ => by cases ha
  | frame :: path, ha, hb, same => by
    rcases List.mem_cons.mp ha with rfl | ha <;> rcases List.mem_cons.mp hb with rfl | hb
    · rfl
    · exact absurd same (Nat.ne_of_gt (depth_lt_of_mem_through hb))
    · exact absurd same (Nat.ne_of_lt (depth_lt_of_mem_through ha))
    · exact eq_of_mem_through ha hb same

/-- On the way up from a node there is one node of each depth. -/
theorem eq_of_mem_lineage {a b c : Cursor} (ha : a ∈ c.lineage) (hb : b ∈ c.lineage)
    (same : a.depth = b.depth) : a = b := by
  rcases List.mem_cons.mp ha with rfl | ha <;> rcases List.mem_cons.mp hb with rfl | hb
  · rfl
  · exact absurd same (Nat.ne_of_gt (depth_lt_of_mem_ancestors hb))
  · exact absurd same (Nat.ne_of_lt (depth_lt_of_mem_ancestors ha))
  · exact eq_of_mem_through ha hb same

/-! ### The nodes below a node -/

/-- `d` is a child of `c`, reached by passing over the children before it. -/
inductive ChildOf (c : Cursor) : Cursor → Prop where
  | intro {before after : List Node} {child : Node} (split : c.node.children = before.reverse ++ child :: after) :
      ChildOf c ⟨child, ⟨c.node, before⟩ :: c.path⟩

/-- `d` is `c` or below it. -/
def Below (c d : Cursor) : Prop := Relation.ReflTransGen ChildOf c d

theorem ChildOf.mem_children {c d : Cursor} (h : ChildOf c d) : d.node ∈ c.node.children := by
  obtain ⟨split⟩ := h
  simp [split]

theorem exists_childOf {c : Cursor} {n : Node} (member : n ∈ c.node.children) : ∃ e, ChildOf c e ∧ e.node = n := by
  obtain ⟨before, after, split⟩ := List.append_of_mem member
  exact ⟨⟨n, ⟨c.node, before.reverse⟩ :: c.path⟩, ⟨by simpa using split⟩, rfl⟩

theorem ChildOf.lineage_eq {c d : Cursor} (h : ChildOf c d) : d.lineage = d :: c.lineage := by
  obtain ⟨-⟩ := h
  rfl

theorem descend_eq (path : List Frame) (n : Node) :
    descend path n = ⟨n, path⟩ :: descendAll path n [] n.children := by
  cases n
  simp only [descend]

theorem mem_descendAll {d : Cursor} {path : List Frame} {parent : Node} :
    ∀ {children before : List Node}, d ∈ descendAll path parent before children ↔
      ∃ passed child rest, children = passed ++ child :: rest ∧
        d ∈ descend (⟨parent, passed.reverse ++ before⟩ :: path) child
  | [], before => by simp [descendAll]
  | first :: children, before => by
    rw [descendAll, List.mem_append, mem_descendAll]
    constructor
    · rintro (h | ⟨passed, child, rest, rfl, h⟩)
      · exact ⟨[], first, children, rfl, h⟩
      · exact ⟨first :: passed, child, rest, rfl, by simpa using h⟩
    · rintro ⟨passed, child, rest, split, h⟩
      cases passed with
      | nil =>
        obtain ⟨rfl, rfl⟩ := List.cons.inj split
        exact Or.inl h
      | cons head passed =>
        obtain ⟨rfl, rfl⟩ := List.cons.inj split
        exact Or.inr ⟨passed, child, rest, rfl, by simpa using h⟩

/-- The pre-order below a node is made of the node and the pre-orders below its children. -/
theorem mem_preorder_cases {c d : Cursor} : d ∈ c.preorder ↔ d = c ∨ ∃ e, ChildOf c e ∧ d ∈ e.preorder := by
  rw [preorder, descend_eq, List.mem_cons, mem_descendAll]
  refine or_congr Iff.rfl ⟨?_, ?_⟩
  · rintro ⟨passed, child, rest, split, h⟩
    exact ⟨⟨child, ⟨c.node, passed.reverse ++ []⟩ :: c.path⟩, ⟨by simpa using split⟩, h⟩
  · rintro ⟨e, ⟨split⟩, h⟩
    exact ⟨_, _, _, split, by simpa [preorder] using h⟩

theorem below_of_mem_preorder {c d : Cursor} (h : d ∈ c.preorder) : Below c d := by
  rcases mem_preorder_cases.mp h with rfl | ⟨e, child, h⟩
  · exact .refl
  · have := Node.sizeOf_lt_of_mem_children child.mem_children
    exact .head child (below_of_mem_preorder h)
termination_by sizeOf c.node

/-- The pre-order lists exactly the nodes at and below a node. -/
theorem mem_preorder_iff {c d : Cursor} : d ∈ c.preorder ↔ Below c d := by
  refine ⟨below_of_mem_preorder, fun h => ?_⟩
  induction h using Relation.ReflTransGen.head_induction_on with
  | refl => exact mem_preorder_cases.mpr (Or.inl rfl)
  | head child _ ih => exact mem_preorder_cases.mpr (Or.inr ⟨_, child, ih⟩)

theorem Below.mem_lineage {c d : Cursor} (h : Below c d) : c ∈ d.lineage := by
  induction h with
  | refl => exact List.mem_cons_self
  | tail _ child ih =>
    rw [child.lineage_eq]
    exact List.mem_cons_of_mem _ ih

theorem ChildOf.mem_ancestors {b c d : Cursor} (child : ChildOf b d) (h : Below c b) : c ∈ d.ancestors := by
  obtain ⟨-⟩ := child
  exact h.mem_lineage

/-- A node above `d` that is no less deep than `c` lies between the two. -/
theorem Below.of_mem_lineage {a c d : Cursor} (h : Below c d) (ha : a ∈ d.lineage) (deep : c.depth ≤ a.depth) :
    Below c a ∧ Below a d := by
  induction h with
  | refl =>
    rcases List.mem_cons.mp ha with rfl | ha
    · exact ⟨.refl, .refl⟩
    · exact absurd (depth_lt_of_mem_ancestors ha) (by omega)
  | tail h child ih =>
    rw [child.lineage_eq] at ha
    rcases List.mem_cons.mp ha with rfl | ha
    · exact ⟨h.tail child, .refl⟩
    · obtain ⟨hca, had⟩ := ih ha
      exact ⟨hca, had.tail child⟩

theorem Below.depth_le {c d : Cursor} (h : Below c d) : c.depth ≤ d.depth := by
  rcases List.mem_cons.mp h.mem_lineage with rfl | h
  · exact Nat.le_refl _
  · exact Nat.le_of_lt (depth_lt_of_mem_ancestors h)

/-! ### The order of the nodes -/

/-- The places of children of a node that were passed over, nearest first. -/
def places (parent : Node) (path : List Frame) : List Node → List Cursor
  | [] => []
  | n :: before => ⟨n, ⟨parent, before⟩ :: path⟩ :: places parent path before

/-- The siblings to the left, nearest first, with their surroundings. -/
def siblingsBefore (c : Cursor) : List Cursor :=
  match c.path with
  | [] => []
  | frame :: path => places frame.parent path frame.before

theorem map_node_places (parent : Node) (path : List Frame) :
    ∀ before : List Node, (places parent path before).map (·.node) = before
  | [] => rfl
  | _ :: before => by rw [places, List.map_cons, map_node_places parent path before]

theorem map_node_siblingsBefore (c : Cursor) : c.siblingsBefore.map (·.node) = c.preceding := by
  obtain ⟨n, path⟩ := c
  cases path with
  | nil => rfl
  | cons frame path => exact map_node_places _ _ _

theorem mem_places {parent : Node} {path : List Frame} {x : Cursor} :
    ∀ {before : List Node}, x ∈ places parent path before ↔
      ∃ nearer farther, before = nearer ++ x.node :: farther ∧ x.path = ⟨parent, farther⟩ :: path
  | [] => by simp [places]
  | n :: before => by
    rw [places, List.mem_cons, mem_places]
    constructor
    · rintro (rfl | ⟨nearer, farther, rfl, h⟩)
      · exact ⟨[], before, rfl, rfl⟩
      · exact ⟨n :: nearer, farther, rfl, h⟩
    · rintro ⟨nearer, farther, split, h⟩
      cases nearer with
      | nil =>
        obtain ⟨rfl, rfl⟩ := List.cons.inj split
        exact Or.inl (by rw [← h])
      | cons _ nearer =>
        obtain ⟨rfl, rfl⟩ := List.cons.inj split
        exact Or.inr ⟨nearer, farther, rfl, h⟩

/-- A sibling to the left was reached from the same node, by passing over fewer children. -/
theorem mem_siblingsBefore {x y : Cursor} : x ∈ y.siblingsBefore ↔
    ∃ parent path nearer farther, y.path = ⟨parent, nearer ++ x.node :: farther⟩ :: path ∧
      x.path = ⟨parent, farther⟩ :: path := by
  unfold siblingsBefore
  split
  · simp_all
  · rename_i frame path shape
    simp only [mem_places, shape, List.cons.injEq]
    constructor
    · rintro ⟨nearer, farther, split, h⟩
      exact ⟨frame.parent, path, nearer, farther, ⟨by rw [← split], rfl⟩, h⟩
    · rintro ⟨parent, path, nearer, farther, ⟨rfl, rfl⟩, h⟩
      exact ⟨nearer, farther, rfl, h⟩

theorem ancestors_eq_of_mem_siblingsBefore {x y : Cursor} (h : x ∈ y.siblingsBefore) :
    x.ancestors = y.ancestors := by
  obtain ⟨parent, path, nearer, farther, hy, hx⟩ := mem_siblingsBefore.mp h
  simp only [ancestors, hy, hx, through]

theorem depth_eq_of_mem_siblingsBefore {x y : Cursor} (h : x ∈ y.siblingsBefore) : x.depth = y.depth := by
  obtain ⟨parent, path, nearer, farther, hy, hx⟩ := mem_siblingsBefore.mp h
  simp only [depth, hy, hx, List.length_cons]

/-- A node is not among its own siblings to the left. -/
theorem not_mem_siblingsBefore_self (c : Cursor) : c ∉ c.siblingsBefore := by
  intro h
  obtain ⟨parent, path, nearer, farther, hy, hx⟩ := mem_siblingsBefore.mp h
  rw [hx] at hy
  have same := congrArg Frame.before (List.cons.inj hy).1
  have := congrArg List.length same
  simp only [List.length_append, List.length_cons] at this
  omega

/-- Of two siblings at most one is on the way up from a node. -/
theorem not_mem_lineage_of_sibling {d x y : Cursor} (sibling : x ∈ y.siblingsBefore) (hx : x ∈ d.lineage) :
    y ∉ d.lineage := by
  intro hy
  have same := eq_of_mem_lineage hx hy (depth_eq_of_mem_siblingsBefore sibling)
  exact not_mem_siblingsBefore_self y (same ▸ sibling)

/-- The siblings to the left of a child are children of the same node. -/
theorem ChildOf.sibling {c x y : Cursor} (child : ChildOf c y) (h : x ∈ y.siblingsBefore) : ChildOf c x := by
  obtain ⟨parent, path, nearer, farther, hy, hx⟩ := mem_siblingsBefore.mp h
  obtain ⟨split⟩ := child
  obtain ⟨frame, rfl⟩ := List.cons.inj hy
  obtain ⟨rfl, rfl⟩ := Frame.mk.inj frame
  obtain ⟨n, _⟩ := x
  subst hx
  exact ⟨by simpa using split⟩

/-- Of the siblings to the left, the farther ones are to the left of the nearer ones. -/
theorem pairwise_siblingsBefore (c : Cursor) : c.siblingsBefore.Pairwise fun near far => far ∈ near.siblingsBefore := by
  have among : ∀ (parent : Node) (path : List Frame) (before : List Node),
      (places parent path before).Pairwise fun near far => far ∈ near.siblingsBefore := by
    intro parent path before
    induction before with
    | nil => exact List.Pairwise.nil
    | cons n before ih => exact List.pairwise_cons.mpr ⟨fun far member => member, ih⟩
  unfold siblingsBefore
  split
  · exact List.Pairwise.nil
  · exact among _ _ _

theorem siblingsBefore_asymm {x y : Cursor} (h : x ∈ y.siblingsBefore) : y ∉ x.siblingsBefore := by
  intro back
  obtain ⟨parent, path, nearer, farther, hy, hx⟩ := mem_siblingsBefore.mp h
  obtain ⟨parent', path', nearer', farther', hx', hy'⟩ := mem_siblingsBefore.mp back
  rw [hx] at hx'
  rw [hy] at hy'
  have fewer := congrArg (fun frame : Frame => frame.before.length) (List.cons.inj hx').1
  have more := congrArg (fun frame : Frame => frame.before.length) (List.cons.inj hy').1
  simp only [List.length_append, List.length_cons] at fewer more
  omega

/-- Of two children of a node, one is to the left of the other. -/
theorem ChildOf.trichotomy {p y z : Cursor} (hy : ChildOf p y) (hz : ChildOf p z) :
    y = z ∨ y ∈ z.siblingsBefore ∨ z ∈ y.siblingsBefore := by
  -- The child whose passed siblings go farther has the other one among them.
  have among : ∀ {before before' after after' mid : List Node} {n n' : Node},
      before'.reverse = before.reverse ++ mid → n :: after = mid ++ n' :: after' →
      Cursor.mk n (⟨p.node, before⟩ :: p.path) = ⟨n', ⟨p.node, before'⟩ :: p.path⟩ ∨
        Cursor.mk n (⟨p.node, before⟩ :: p.path) ∈ (Cursor.mk n' (⟨p.node, before'⟩ :: p.path)).siblingsBefore := by
    intro before before' after after' mid n n' passed ahead
    cases mid with
    | nil =>
      obtain ⟨rfl, -⟩ := List.cons.inj ahead
      rw [List.append_nil, List.reverse_inj] at passed
      exact Or.inl (by rw [passed])
    | cons m mid =>
      obtain ⟨rfl, -⟩ := List.cons.inj ahead
      refine Or.inr (mem_siblingsBefore.mpr ⟨p.node, p.path, mid.reverse, before, ?_, rfl⟩)
      rw [List.reverse_eq_iff.mp passed]
      simp
  obtain ⟨splitY⟩ := hy
  obtain ⟨splitZ⟩ := hz
  rw [splitY] at splitZ
  rcases List.append_eq_append_iff.mp splitZ with ⟨mid, passed, ahead⟩ | ⟨mid, passed, ahead⟩
  · rcases among passed ahead with same | left
    · exact Or.inl same
    · exact Or.inr (Or.inl left)
  · rcases among passed ahead with same | left
    · exact Or.inl same.symm
    · exact Or.inr (Or.inr left)

/-- A node of a tree that has siblings to the left is a child of the node that these were reached from. -/
theorem Below.childOf_of_sibling {root : Node} {x y : Cursor} (hy : Below (.ofRoot root) y)
    (sibling : x ∈ y.siblingsBefore) : ∃ p, x.parent? = some p ∧ ChildOf p y := by
  rcases hy.cases_tail with same | ⟨p, -, child⟩
  · rw [same] at sibling
    cases sibling
  · refine ⟨p, ?_, child⟩
    obtain ⟨-⟩ := child.sibling sibling
    rfl

/-- In a tree, a sibling that is to the left of two nodes belongs to both, and so does one of the two to the other. -/
theorem siblings_of_common {root : Node} {x y z : Cursor} (hy : Below (.ofRoot root) y) (hz : Below (.ofRoot root) z)
    (beforeY : x ∈ y.siblingsBefore) (beforeZ : x ∈ z.siblingsBefore) :
    y = z ∨ y ∈ z.siblingsBefore ∨ z ∈ y.siblingsBefore := by
  obtain ⟨p, foundY, childY⟩ := hy.childOf_of_sibling beforeY
  obtain ⟨q, foundZ, childZ⟩ := hz.childOf_of_sibling beforeZ
  obtain rfl : p = q := Option.some.inj (foundY.symm.trans foundZ)
  exact childY.trichotomy childZ

/-- What is nearer than a member of the nearest siblings is a member, too. -/
theorem mem_of_nearer {x y z : Cursor} {nearest : List Cursor} (nearestZ : nearest <+: z.siblingsBefore)
    (member : x ∈ nearest) (nearer : y ∈ z.siblingsBefore) (beyond : x ∈ y.siblingsBefore) : y ∈ nearest := by
  obtain ⟨rest, split⟩ := nearestZ
  rw [← split] at nearer
  rcases List.mem_append.mp nearer with near | far
  · exact near
  · have order := pairwise_siblingsBefore z
    rw [← split, List.pairwise_append] at order
    exact absurd (order.2.2 x member y far) (siblingsBefore_asymm beyond)

/-- `a` and `b` lie at or below siblings, and that of `a` comes first. -/
def LeftOf (a b : Cursor) : Prop :=
  ∃ x ∈ a.lineage, ∃ y ∈ b.lineage, x ∈ y.siblingsBefore

theorem pairwise_descendAll {path : List Frame} {parent : Node} {R : Cursor → Cursor → Prop}
    (across : ∀ {x y a b : Cursor}, x ∈ y.siblingsBefore → a ∈ x.preorder → b ∈ y.preorder → R a b) :
    ∀ {children before : List Node},
      (∀ child ∈ children, ∀ path, (descend path child).Pairwise R) →
      (descendAll path parent before children).Pairwise R
  | [], before, _ => by simp [descendAll]
  | first :: children, before, below => by
    rw [descendAll, List.pairwise_append]
    refine ⟨below _ List.mem_cons_self _, ?_, fun a ha b hb => ?_⟩
    · exact pairwise_descendAll across fun child member => below child (List.mem_cons_of_mem _ member)
    · obtain ⟨passed, child, rest, -, hb⟩ := mem_descendAll.mp hb
      have sibling : ⟨first, ⟨parent, before⟩ :: path⟩ ∈
          (Cursor.mk child (⟨parent, passed.reverse ++ first :: before⟩ :: path)).siblingsBefore :=
        mem_siblingsBefore.mpr ⟨parent, path, passed.reverse, before, rfl, rfl⟩
      exact across sibling ha hb

theorem pairwise_descend (n : Node) (path : List Frame) :
    (descend path n).Pairwise fun a b => a ∈ b.ancestors ∨ LeftOf a b := by
  rw [descend_eq, List.pairwise_cons]
  refine ⟨fun b hb => Or.inl ?_, pairwise_descendAll ?_ fun child member path => ?_⟩
  · obtain ⟨passed, child, rest, -, hb⟩ := mem_descendAll.mp hb
    have h : Below ⟨child, ⟨n, passed.reverse ++ []⟩ :: path⟩ b := mem_preorder_iff.mp hb
    exact ancestors_of_mem_lineage List.mem_cons_self h.mem_lineage
  · intro x y a b sibling ha hb
    exact Or.inr ⟨x, (mem_preorder_iff.mp ha).mem_lineage, y, (mem_preorder_iff.mp hb).mem_lineage, sibling⟩
  · have := Node.sizeOf_lt_of_mem_children member
    exact pairwise_descend child path
termination_by sizeOf n

/-- What comes first in the pre-order is above what comes later, or to the left of it. -/
theorem pairwise_preorder (c : Cursor) : c.preorder.Pairwise fun a b => a ∈ b.ancestors ∨ LeftOf a b :=
  pairwise_descend c.node c.path

/-- What is to the left of a node is neither that node nor above it. -/
theorem LeftOf.not_mem_lineage {a b : Cursor} (left : LeftOf a b) : a ∉ b.lineage := by
  intro h
  obtain ⟨x, hx, y, hy, sibling⟩ := left
  exact not_mem_lineage_of_sibling sibling (lineage_trans hx h) hy

/-- What is to the left of a node is not below that node. -/
theorem LeftOf.not_below {a b : Cursor} (left : LeftOf a b) : b ∉ a.lineage := by
  intro h
  obtain ⟨x, hx, y, hy, sibling⟩ := left
  exact not_mem_lineage_of_sibling sibling hx (lineage_trans hy h)

theorem nodup_preorder (c : Cursor) : c.preorder.Nodup := by
  refine (pairwise_preorder c).imp fun {a b} h => ?_
  rintro rfl
  rcases h with above | left
  · exact Nat.lt_irrefl _ (depth_lt_of_mem_ancestors above)
  · exact left.not_mem_lineage List.mem_cons_self

end DeclSplit.Cursor

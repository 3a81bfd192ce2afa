import DeclSplit.Boundary
import DeclSplit.Proofs.Tree.Ancestry
import Mathlib.Data.List.Basic

/-!
What a walk over a tree records. The loop of a walk keeps two stacks of its own, of names and of what
the open nodes gave to them. At every step the first holds the names of the kept nodes above the place
of the walk, and the records made so far together with those of the nodes still ahead are the records
of the whole pre-order. So the walk ends, and it has one record for each kept node, in pre-order.
-/

namespace DeclSplit

namespace Cursor

/-- The nodes above `d` that are no less deep than `c`, nearest first. For a node below `c` they are
the nodes above it that are `c` or below `c`. -/
def ancestorsWithin (c d : Cursor) : List Cursor :=
  d.ancestors.filter fun a => c.depth ≤ a.depth

/-- `d` and the nodes above it that are no less deep than `c`, nearest first. -/
def lineageWithin (c d : Cursor) : List Cursor :=
  d.lineage.filter fun a => c.depth ≤ a.depth

theorem mem_ancestorsWithin {a c d : Cursor} (h : Below c d) :
    a ∈ ancestorsWithin c d ↔ a ∈ d.ancestors ∧ Below c a := by
  simp only [ancestorsWithin, List.mem_filter, decide_eq_true_eq]
  refine and_congr_right fun above => ⟨fun deep => ?_, Below.depth_le⟩
  exact (h.of_mem_lineage (List.mem_cons_of_mem _ above) deep).1

theorem ancestorsWithin_self (c : Cursor) : ancestorsWithin c c = [] := by
  rw [ancestorsWithin, List.filter_eq_nil_iff]
  intro a above deep
  have := depth_lt_of_mem_ancestors above
  simp only [decide_eq_true_eq] at deep
  omega

theorem ancestorsWithin_step (c : Cursor) (n : Node) (frame : Frame) (path : List Frame) :
    ancestorsWithin c ⟨n, frame :: path⟩ = lineageWithin c ⟨frame.parent, path⟩ := rfl

theorem lineageWithin_eq {c d : Cursor} (deep : c.depth ≤ d.depth) :
    lineageWithin c d = d :: ancestorsWithin c d := by
  simp [lineageWithin, lineage, ancestorsWithin, deep]

end Cursor

namespace Survey

/-- The nodes at and below a cursor that are kept, in pre-order. -/
def kept (s : Survey) (c : Cursor) : List Cursor :=
  c.preorder.filter s.keeps

/-- The name that a node gives to what is below it: its own, if it is kept. -/
def given (s : Survey) (c : Cursor) : Option String :=
  if s.keeps c then Naming.name? s.language s.source c else none

/-- The names of the kept nodes above `d` that are `c` or below `c`, outermost first. -/
def enclosing (s : Survey) (c d : Cursor) : List String :=
  ((Cursor.ancestorsWithin c d).filterMap s.given).reverse

/-- The records of the kept ones among some nodes below `c`. -/
def records (s : Survey) (c : Cursor) (ds : List Cursor) : List Boundary :=
  (ds.filter s.keeps).map fun d => s.record d (s.enclosing c d)

theorem mem_kept {s : Survey} {c d : Cursor} :
    d ∈ s.kept c ↔ Cursor.Below c d ∧ s.keeps d = true := by
  rw [kept, List.mem_filter, Cursor.mem_preorder_iff]

theorem pairwise_kept (s : Survey) (c : Cursor) :
    (s.kept c).Pairwise fun a b => a ∈ b.ancestors ∨ Cursor.LeftOf a b :=
  (Cursor.pairwise_preorder c).filter _

theorem given_eq_some {s : Survey} {c : Cursor} {name : String} :
    s.given c = some name ↔ s.keeps c = true ∧ Naming.name? s.language s.source c = some name := by
  unfold given
  split <;> simp_all

@[simp] theorem record_name (s : Survey) (c : Cursor) (parents : List String) :
    (s.record c parents).name = Naming.name? s.language s.source c := rfl

@[simp] theorem record_parents (s : Survey) (c : Cursor) (parents : List String) :
    (s.record c parents).parents = parents := rfl

theorem records_cons (s : Survey) (c d : Cursor) (ds : List Cursor) :
    s.records c (d :: ds) =
      (if s.keeps d then [s.record d (s.enclosing c d)] else []) ++ s.records c ds := by
  by_cases h : s.keeps d <;> simp [records, h]

end Survey

/-! ### The invariant of a walk -/

namespace Walker

/-- The nodes ahead of a walk that stands at `n`, without those below `n`, in pre-order. -/
def pending (above : List Frame) : Node → List Step → List Cursor
  | _, [] => []
  | n, step :: steps =>
    Cursor.descendAll (steps.map (·.toFrame) ++ above) step.parent (n :: step.before) step.after ++
      pending above step.parent steps

end Walker

namespace Walk

/-- The nodes that a walk is still to enter, in pre-order. -/
def todo (w : Walk) : List Cursor :=
  (if w.leaving then [] else w.walker.place.preorder) ++
    Walker.pending w.walker.above w.walker.node w.walker.steps

/-- The open nodes of a walk that started at `c`, innermost first. -/
def opened (c : Cursor) (w : Walk) : List Cursor :=
  if w.leaving then Cursor.lineageWithin c w.walker.place else Cursor.ancestorsWithin c w.walker.place

/-- The two stacks hold what some nodes gave, innermost first. -/
structure Holds (s : Survey) (ds : List Cursor) (w : Walk) : Prop where
  chain : w.chain = ds.filterMap s.given
  pushed : w.pushed = ds.map fun d => (s.given d).isSome

/-- The two stacks hold what the open nodes gave, and what was recorded goes before the records of
what is still to be entered. -/
structure Sound (s : Survey) (c : Cursor) (w : Walk) : Prop where
  above : w.walker.above = c.path
  holds : w.Holds s (w.opened c)
  found : w.found.reverse ++ s.records c w.todo = s.records c c.preorder

namespace Holds
variable {s : Survey} {d : Cursor} {ds : List Cursor} {w : Walk}

/-- Entering a node adds what it gives. -/
theorem visit (holds : w.Holds s ds) : (s.visit w).Holds s (w.walker.place :: ds) := by
  obtain ⟨chain, pushed⟩ := holds
  refine ⟨?_, ?_⟩
  · rw [List.filterMap_cons, ← chain]
    unfold Survey.visit Survey.given
    split
    · simp only [Survey.record_name]
      cases Naming.name? s.language s.source w.walker.place <;> rfl
    · rfl
  · rw [List.map_cons, ← pushed]
    unfold Survey.visit Survey.given
    split <;> rfl

/-- Leaving a node takes back what it gave and nothing else. -/
theorem close (holds : w.Holds s (d :: ds)) : w.close.Holds s ds := by
  obtain ⟨chain, pushed⟩ := holds
  rw [List.filterMap_cons] at chain
  rw [List.map_cons] at pushed
  refine ⟨?_, by simp [Walk.close, pushed]⟩
  -- A name was pushed exactly when the node gave one, so only its own name is dropped.
  cases gave : s.given d <;> simp [Walk.close, chain, pushed, gave]

end Holds

namespace Sound
variable {s : Survey} {c : Cursor} {w : Walk}

theorem start (s : Survey) (c : Cursor) : (Walk.start c).Sound s c := by
  have opened : (Walk.start c).opened c = [] := Cursor.ancestorsWithin_self c
  refine ⟨rfl, ?_, ?_⟩
  · rw [opened]
    exact ⟨rfl, rfl⟩
  · simp [Walk.start, todo, Walker.start, Walker.place, Walker.pending]

theorem depth_le (sound : w.Sound s c) : c.depth ≤ w.walker.place.depth := by
  simp [Cursor.depth, Walker.place, sound.above]

/-- The names on the stack are those above the node that is entered next. -/
theorem chain_reverse (sound : w.Sound s c) (entering : w.leaving = false) :
    w.chain.reverse = s.enclosing c w.walker.place := by
  simp [sound.holds.chain, opened, entering, Survey.enclosing]

/-- After a node was entered, the stacks hold what it and the nodes above it gave. -/
theorem visit_holds (sound : w.Sound s c) (entering : w.leaving = false) :
    (s.visit w).Holds s (Cursor.lineageWithin c w.walker.place) := by
  have opened : w.opened c = Cursor.ancestorsWithin c w.walker.place := by simp [Walk.opened, entering]
  have holds := sound.holds.visit
  rw [opened, ← Cursor.lineageWithin_eq sound.depth_le] at holds
  exact holds

/-- After a node was left, the stacks hold what the nodes above it gave. -/
theorem close_holds (sound : w.Sound s c) (leaving : w.leaving = true) :
    w.close.Holds s (Cursor.ancestorsWithin c w.walker.place) := by
  have opened : w.opened c = w.walker.place :: Cursor.ancestorsWithin c w.walker.place := by
    rw [Walk.opened, if_pos leaving, Cursor.lineageWithin_eq sound.depth_le]
  have holds := sound.holds
  rw [opened] at holds
  exact holds.close

/-- Entering a node turns it from one still to be entered into one that is recorded. -/
theorem visit_found (sound : w.Sound s c) (entering : w.leaving = false) {rest : List Cursor}
    (todo : w.todo = w.walker.place :: rest) :
    (s.visit w).found.reverse ++ s.records c rest = s.records c c.preorder := by
  rw [← sound.found, todo, Survey.records_cons, ← sound.chain_reverse entering]
  unfold Survey.visit
  split <;> simp

/-! ### What a step keeps -/

theorem down {below : Walker} (sound : w.Sound s c) (entering : w.leaving = false)
    (moved : w.walker.down? = some below) : Sound s c { s.visit w with walker := below } := by
  obtain ⟨chain, pushed⟩ := sound.visit_holds entering
  obtain ⟨child, rest, children, rfl⟩ := Walker.down?_eq_some moved
  refine ⟨sound.above, ?_, sound.visit_found entering ?_⟩
  · rw [opened, if_neg (by simp [entering])]
    exact ⟨chain, pushed⟩
  · simp [todo, entering, Cursor.preorder, Walker.place, Cursor.descend_eq _ w.walker.node, children,
      Cursor.descendAll, Walker.pending]

theorem leaf (sound : w.Sound s c) (entering : w.leaving = false) (stuck : w.walker.down? = none) :
    Sound s c { s.visit w with leaving := true } := by
  obtain ⟨chain, pushed⟩ := sound.visit_holds entering
  have children := Walker.down?_eq_none stuck
  refine ⟨by simpa using sound.above, ?_, sound.visit_found entering ?_⟩
  · rw [opened, if_pos rfl, Survey.visit_walker]
    exact ⟨chain, pushed⟩
  · simp [todo, entering, Cursor.preorder, Walker.place, Cursor.descend_eq _ w.walker.node, children,
      Cursor.descendAll]

theorem next {beside : Walker} (sound : w.Sound s c) (leaving : w.leaving = true)
    (moved : w.walker.next? = some beside) :
    Sound s c { w.close with walker := beside, leaving := false } := by
  obtain ⟨chain, pushed⟩ := sound.close_holds leaving
  obtain ⟨parent, before, next, rest, steps, shape, rfl⟩ := Walker.next?_eq_some moved
  -- The node and its sibling have the same nodes above them.
  rw [Walker.place, shape, List.map_cons, List.cons_append, Cursor.ancestorsWithin_step] at chain pushed
  refine ⟨sound.above, ⟨chain, pushed⟩, ?_⟩
  rw [← sound.found]
  simp [todo, leaving, shape, Walker.pending, Walker.place, Cursor.preorder, Cursor.descendAll]

theorem up {higher : Walker} (sound : w.Sound s c) (leaving : w.leaving = true)
    (stuck : w.walker.next? = none) (moved : w.walker.up? = some higher) :
    Sound s c { w.close with walker := higher } := by
  obtain ⟨chain, pushed⟩ := sound.close_holds leaving
  obtain ⟨step, steps, shape, rfl⟩ := Walker.up?_eq_some moved
  have after := Walker.after_eq_nil stuck shape
  rw [Walker.place, shape, List.map_cons, List.cons_append, Cursor.ancestorsWithin_step] at chain pushed
  refine ⟨sound.above, ?_, ?_⟩
  · rw [opened, if_pos (by simp [leaving])]
    exact ⟨chain, pushed⟩
  · rw [← sound.found]
    simp [todo, leaving, shape, after, Walker.pending, Cursor.descendAll]

theorem step {next : Walk} (sound : w.Sound s c) (stepped : s.step w = .inl next) : next.Sound s c := by
  rcases Survey.step_cases stepped with ⟨entering, below, moved, rfl⟩ | ⟨entering, stuck, rfl⟩ |
      ⟨leaving, beside, moved, rfl⟩ | ⟨leaving, stuck, higher, moved, rfl⟩
  · exact sound.down entering moved
  · exact sound.leaf entering stuck
  · exact sound.next leaving moved
  · exact sound.up leaving stuck moved

theorem ended {found : List Boundary} (sound : w.Sound s c) (ended : s.step w = .inr found) :
    found = s.records c c.preorder := by
  obtain ⟨leaving, steps, rfl⟩ := Survey.step_eq_end ended
  simpa [todo, leaving, steps, Walker.pending, Survey.records] using sound.found

end Sound

end Walk

/-! ### Whole walks -/

namespace Survey

/-- The walk goes from `w` to `next` in one step. -/
def Moves (s : Survey) (w next : Walk) : Prop := s.step w = .inl next

/-- From every state a walk comes to its end, with the records that `finish` gives. -/
theorem finish_reached (s : Survey) (w : Walk) :
    ∃ last, Relation.ReflTransGen s.Moves w last ∧ s.step last = .inr (s.finish w) := by
  fun_induction finish s w with
  | case1 w next stepped _ ih =>
    obtain ⟨last, run, ended⟩ := ih
    exact ⟨last, .head stepped run, ended⟩
  | case2 w found ended => exact ⟨w, .refl, ended⟩

theorem sound_of_run {s : Survey} {c : Cursor} {w last : Walk} (sound : w.Sound s c)
    (run : Relation.ReflTransGen s.Moves w last) : last.Sound s c := by
  induction run with
  | refl => exact sound
  | tail _ stepped ih => exact ih.step stepped

/-- There is one record for each kept node, in pre-order, and its parents are the names of the kept
nodes around it. -/
theorem boundaries_eq_records (s : Survey) (c : Cursor) :
    s.boundaries c = (s.kept c).map fun d => s.record d (s.enclosing c d) := by
  obtain ⟨last, run, ended⟩ := s.finish_reached (.start c)
  exact (sound_of_run (.start s c) run).ended ended

theorem parents_boundaries (s : Survey) (c : Cursor) :
    (s.boundaries c).map (·.parents) = (s.kept c).map (s.enclosing c) := by
  rw [boundaries_eq_records, List.map_map]
  apply List.map_congr_left
  intro d _
  rw [Function.comp_apply, record_parents]

section Map
variable {s t : Survey} {f : Cursor → Cursor} {g : Boundary → Boundary} {c : Cursor}
  (keeps : ∀ d, Cursor.Below c d → t.keeps (f d) = s.keeps d)
  (records : ∀ d parents, t.record (f d) parents = g (s.record d parents)) (names : ∀ b, (g b).name = b.name)
include keeps records names

theorem given_map {d : Cursor} (below : Cursor.Below c d) : t.given (f d) = s.given d := by
  have name : Naming.name? t.language t.source (f d) = Naming.name? s.language s.source d := by
    rw [← record_name t (f d) [], records, names, record_name]
  rw [given, given, keeps d below, name]

/-- Walks over two trees that keep corresponding nodes and record them alike make corresponding records. -/
theorem boundaries_map (preorder : (f c).preorder = c.preorder.map f)
    (within : ∀ d, Cursor.ancestorsWithin (f c) (f d) = (Cursor.ancestorsWithin c d).map f) :
    t.boundaries (f c) = (s.boundaries c).map g := by
  have kept : t.kept (f c) = (s.kept c).map f := by
    rw [kept, preorder, List.filter_map, kept]
    congr 1
    exact List.filter_congr fun d member => keeps d (Cursor.mem_preorder_iff.mp member)
  rw [boundaries_eq_records, boundaries_eq_records, kept, List.map_map, List.map_map]
  apply List.map_congr_left
  intro d member
  have enclosing : t.enclosing (f c) (f d) = s.enclosing c d := by
    rw [enclosing, within, List.filterMap_map, enclosing]
    congr 1
    apply List.filterMap_congr
    intro a above
    exact given_map keeps records names ((Cursor.mem_ancestorsWithin (mem_kept.mp member).1).mp above).2
  rw [Function.comp_apply, Function.comp_apply, enclosing, records]

end Map

/-- The loop of a walk comes to an end, with one record for each kept node at and below its start, in
pre-order: what is above comes before what is below, and what is to the left before what is to the
right. The parents of a record are the names of the kept nodes above its node, outermost first, as far
up as the start; nothing else gives a name to them. -/
theorem walk_ends_with_kept_records (s : Survey) (c : Cursor) :
    (∃ last, Relation.ReflTransGen s.Moves (.start c) last ∧ s.step last = .inr (s.boundaries c)) ∧
      s.boundaries c = (s.kept c).map (fun d => s.record d (s.enclosing c d)) ∧
      (s.boundaries c).map (·.parents) = (s.kept c).map (s.enclosing c) ∧
      (s.kept c).Nodup ∧
      (∀ d, d ∈ s.kept c ↔ Cursor.Below c d ∧ s.keeps d = true) ∧
      ((s.kept c).Pairwise fun a b => a ∈ b.ancestors ∨ Cursor.LeftOf a b) ∧
      ∀ d ∈ s.kept c, ∀ name, name ∈ s.enclosing c d ↔ ∃ a ∈ d.ancestors, Cursor.Below c a ∧
        s.keeps a = true ∧ Naming.name? s.language s.source a = some name := by
  refine ⟨s.finish_reached (.start c), s.boundaries_eq_records c, s.parents_boundaries c,
    (Cursor.nodup_preorder c).filter _, fun d => mem_kept, s.pairwise_kept c, fun d kept name => ?_⟩
  simp only [enclosing, List.mem_reverse, List.mem_filterMap, given_eq_some, and_assoc,
    Cursor.mem_ancestorsWithin (mem_kept.mp kept).1]

end Survey

end DeclSplit

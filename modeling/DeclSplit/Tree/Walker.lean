import DeclSplit.Tree.Cursor

/-!
A place in a walk over a part of a tree. The walk moves one node at a time, knows what is still ahead
of it, and never leaves the node at which it started.
-/
namespace DeclSplit

/-- One step down in a walk: the children passed over and those that are still ahead. -/
structure Step extends Frame where
  after : List Node

/-- The node at which a walk stands, the steps that lead to it from the start, the last step first,
and what is above the start. -/
structure Walker where
  node : Node
  steps : List Step
  above : List Frame

namespace Walker

/-- A walk that is about to start at a cursor. -/
def start (c : Cursor) : Walker :=
  ⟨c.node, [], c.path⟩

/-- The node at which the walk stands, with its surroundings in the whole tree. -/
def place (w : Walker) : Cursor :=
  ⟨w.node, w.steps.map (·.toFrame) ++ w.above⟩

/-- Moves to the first child. -/
def down? (w : Walker) : Option Walker :=
  match w.node.children with
  | [] => none
  | child :: rest => some { w with node := child, steps := ⟨⟨w.node, []⟩, rest⟩ :: w.steps }

/-- Moves to the next sibling. The start has none. -/
def next? (w : Walker) : Option Walker :=
  match w.steps with
  | ⟨⟨parent, before⟩, next :: rest⟩ :: steps =>
    some { w with node := next, steps := ⟨⟨parent, w.node :: before⟩, rest⟩ :: steps }
  | _ => none

/-- Moves to the node above. There is none above the start. -/
def up? (w : Walker) : Option Walker :=
  match w.steps with
  | [] => none
  | step :: steps => some { w with node := step.parent, steps := steps }

/-- The number of nodes ahead of the walk, without the node at which it stands and what is below. -/
def ahead (w : Walker) : Nat :=
  w.steps.foldr (fun step rest => Node.countAll step.after + rest) 0

theorem down?_eq_some {w below : Walker} (moved : w.down? = some below) :
    ∃ child rest, w.node.children = child :: rest ∧
      below = ⟨child, ⟨⟨w.node, []⟩, rest⟩ :: w.steps, w.above⟩ := by
  unfold down? at moved
  split at moved
  · cases moved
  · rename_i child rest shape
    exact ⟨child, rest, shape, (Option.some.inj moved).symm⟩

theorem down?_eq_none {w : Walker} (stuck : w.down? = none) : w.node.children = [] := by
  unfold down? at stuck
  split at stuck
  · assumption
  · cases stuck

theorem next?_eq_some {w beside : Walker} (moved : w.next? = some beside) :
    ∃ parent before next rest steps, w.steps = ⟨⟨parent, before⟩, next :: rest⟩ :: steps ∧
      beside = ⟨next, ⟨⟨parent, w.node :: before⟩, rest⟩ :: steps, w.above⟩ := by
  unfold next? at moved
  split at moved
  · rename_i parent before next rest steps shape
    exact ⟨parent, before, next, rest, steps, shape, (Option.some.inj moved).symm⟩
  · cases moved

theorem up?_eq_some {w higher : Walker} (moved : w.up? = some higher) :
    ∃ step steps, w.steps = step :: steps ∧ higher = ⟨step.parent, steps, w.above⟩ := by
  unfold up? at moved
  split at moved
  · cases moved
  · rename_i step steps shape
    exact ⟨step, steps, shape, (Option.some.inj moved).symm⟩

theorem up?_eq_none {w : Walker} (stuck : w.up? = none) : w.steps = [] := by
  unfold up? at stuck
  split at stuck
  · assumption
  · cases stuck

/-- A walk that has no next sibling to go to has nothing ahead of it in its last step. -/
theorem after_eq_nil {w : Walker} {step : Step} {steps : List Step} (stuck : w.next? = none)
    (shape : w.steps = step :: steps) : step.after = [] := by
  obtain ⟨⟨parent, before⟩, after⟩ := step
  cases after with
  | nil => rfl
  | cons next rest => simp [next?, shape] at stuck

end Walker

end DeclSplit

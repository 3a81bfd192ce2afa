import DeclSplit.Documentation
import DeclSplit.Language.Registry
import DeclSplit.Naming
import DeclSplit.Tree.Walker

/-!
The declarations of a syntax tree. A walk in pre-order keeps the nodes that are declarations and
records each of them with its name, its documentation and the names of the kept declarations around
it. A node that is not kept leaves no trace, but what is below it is still visited.

The walk is a loop and not a recursion, so that the depth of a tree costs no stack. A node is entered
when the walk comes to it and left when everything below it has been visited; between the two it is
open.
-/
namespace DeclSplit

/-- Decides which of the declarations of a language are kept. -/
abbrev Filter := Language → Cursor → Bool

namespace Filter

/-- Keeps everything. -/
def acceptAll : Filter := fun _ _ => true

/-- Keeps the nodes of the given kinds. -/
def ofKinds (kinds : List String) : Filter := fun _ c => kinds.contains c.node.kind

end Filter

/-- A declaration found in a source. Its range starts at the documentation above it, if there is
any; `text` is the declaration alone. Lines count from 1. -/
structure Boundary where
  kind : String
  parents : List String
  name : Option String
  startOffset : Nat
  endOffset : Nat
  text : String
  docs : String
  startLine : Nat
  endLine : Nat
deriving DecidableEq, Repr

/-- A walk under way: where it stands, and whether the node there is entered or left next. Of the open
nodes it holds the names of those that are kept and have one, and for each whether it gave a name,
both innermost first. The records come latest first. -/
structure Walk where
  walker : Walker
  leaving : Bool
  chain : List String
  pushed : List Bool
  found : List Boundary

namespace Walk

/-- A walk that is about to enter the node at a cursor. -/
def start (c : Cursor) : Walk :=
  ⟨.start c, false, [], [], []⟩

/-- Closes the innermost open node and takes back the name that it gave. -/
def close (w : Walk) : Walk :=
  match w.pushed with
  | [] => w
  | gave :: pushed => { w with chain := if gave then w.chain.tail else w.chain, pushed := pushed }

/-- The number of nodes that were not entered yet. -/
def unvisited (w : Walk) : Nat :=
  (if w.leaving then 0 else w.walker.node.count) + w.walker.ahead

/-- Bounds the number of steps that are left: a node that was not entered is still to be entered and
left, a node above is still to be left. -/
def remaining (w : Walk) : Nat :=
  2 * w.unvisited + w.walker.steps.length + (if w.leaving then 1 else 0)

@[simp] theorem close_leaving (w : Walk) : w.close.leaving = w.leaving := by
  unfold close
  split <;> rfl

@[simp] theorem close_found (w : Walk) : w.close.found = w.found := by
  unfold close
  split <;> rfl

end Walk

/-- What a walk looks for, and in which source. -/
structure Survey where
  language : Language
  source : String
  kinds : List String
  filter : Filter

namespace Survey

/-- The survey of all declarations that the registry knows for a language. -/
def ofLanguage (language : Language) (source : String) (filter : Filter) : Survey :=
  ⟨language, source, language.declarationKinds, filter⟩

/-- Whether a node is one of the declarations looked for. -/
def keeps (s : Survey) (c : Cursor) : Bool :=
  c.node.named && s.kinds.contains c.node.kind && s.filter s.language c

/-- The record of a declaration below declarations of the given names, outermost first. -/
def record (s : Survey) (c : Cursor) (parents : List String) : Boundary :=
  let docs := Documentation.find? s.language s.source c
  let start : LeadingStart :=
    (docs.bind (·.leading)).getD ⟨c.node.span.startByte, c.node.span.startRow⟩
  { kind := c.node.kind
    parents := parents
    name := Naming.name? s.language s.source c
    startOffset := start.byte
    endOffset := c.node.span.endByte
    text := c.node.text s.source
    docs := (docs.map (·.text)).getD ""
    startLine := start.row + 1
    endLine := c.node.span.endRow + 1 }

/-- Enters the node at which the walk stands: records it if it is kept, and opens it. -/
def visit (s : Survey) (w : Walk) : Walk :=
  if s.keeps w.walker.place then
    let found := s.record w.walker.place w.chain.reverse
    { w with
      chain := found.name.toList ++ w.chain
      pushed := found.name.isSome :: w.pushed
      found := found :: w.found }
  else
    { w with pushed := false :: w.pushed }

@[simp] theorem visit_walker (s : Survey) (w : Walk) : (s.visit w).walker = w.walker := by
  unfold visit
  split <;> rfl

@[simp] theorem visit_leaving (s : Survey) (w : Walk) : (s.visit w).leaving = w.leaving := by
  unfold visit
  split <;> rfl

/-- Enters or leaves a node and moves on, down before sideways before up. At the end there are the
records of the walk. -/
def step (s : Survey) (w : Walk) : Walk ⊕ List Boundary :=
  if w.leaving then
    match w.walker.next? with
    | some beside => .inl { w.close with walker := beside, leaving := false }
    | none =>
      match w.walker.up? with
      | some higher => .inl { w.close with walker := higher }
      | none => .inr w.found.reverse
  else
    match w.walker.down? with
    | some below => .inl { s.visit w with walker := below }
    | none => .inl { s.visit w with leaving := true }

/-- What one step does, by what the walk was about to do and where it can go. -/
theorem step_cases {s : Survey} {w next : Walk} (stepped : s.step w = .inl next) :
    (w.leaving = false ∧ ∃ below, w.walker.down? = some below ∧
        next = { s.visit w with walker := below }) ∨
      (w.leaving = false ∧ w.walker.down? = none ∧ next = { s.visit w with leaving := true }) ∨
      (w.leaving = true ∧ ∃ beside, w.walker.next? = some beside ∧
        next = { w.close with walker := beside, leaving := false }) ∨
      (w.leaving = true ∧ w.walker.next? = none ∧ ∃ higher, w.walker.up? = some higher ∧
        next = { w.close with walker := higher }) := by
  unfold step at stepped
  cases leaving : w.leaving with
  | false =>
    simp only [leaving, Bool.false_eq_true, if_false] at stepped
    cases moved : w.walker.down? with
    | some below =>
      rw [moved] at stepped
      exact .inl ⟨rfl, below, rfl, (Sum.inl.inj stepped).symm⟩
    | none =>
      rw [moved] at stepped
      exact .inr (.inl ⟨rfl, rfl, (Sum.inl.inj stepped).symm⟩)
  | true =>
    simp only [leaving, if_true] at stepped
    cases moved : w.walker.next? with
    | some beside =>
      rw [moved] at stepped
      exact .inr (.inr (.inl ⟨rfl, beside, rfl, (Sum.inl.inj stepped).symm⟩))
    | none =>
      cases raised : w.walker.up? with
      | some higher =>
        rw [moved, raised] at stepped
        exact .inr (.inr (.inr ⟨rfl, rfl, higher, rfl, (Sum.inl.inj stepped).symm⟩))
      | none =>
        rw [moved, raised] at stepped
        cases stepped

/-- The walk ends when it leaves the node at which it started. -/
theorem step_eq_end {s : Survey} {w : Walk} {records : List Boundary}
    (ended : s.step w = .inr records) :
    w.leaving = true ∧ w.walker.steps = [] ∧ records = w.found.reverse := by
  unfold step at ended
  cases leaving : w.leaving with
  | false =>
    simp only [leaving, Bool.false_eq_true, if_false] at ended
    cases moved : w.walker.down? <;> rw [moved] at ended <;> cases ended
  | true =>
    simp only [leaving, if_true] at ended
    cases moved : w.walker.next? with
    | some beside => rw [moved] at ended; cases ended
    | none =>
      cases raised : w.walker.up? with
      | some higher => rw [moved, raised] at ended; cases ended
      | none =>
        rw [moved, raised] at ended
        exact ⟨rfl, Walker.up?_eq_none raised, (Sum.inr.inj ended).symm⟩

theorem remaining_step_lt {s : Survey} {w next : Walk} (stepped : s.step w = .inl next) :
    next.remaining < w.remaining := by
  rcases step_cases stepped with ⟨entering, below, moved, rfl⟩ | ⟨entering, -, rfl⟩ |
      ⟨leaving, beside, moved, rfl⟩ | ⟨leaving, -, higher, moved, rfl⟩
  · obtain ⟨child, rest, children, rfl⟩ := Walker.down?_eq_some moved
    simp [Walk.remaining, Walk.unvisited, Walker.ahead, entering, Node.count_eq, children,
      Node.countAll]
    omega
  · simp [Walk.remaining, Walk.unvisited, entering, Node.count_eq]
    omega
  · obtain ⟨parent, before, next, rest, steps, shape, rfl⟩ := Walker.next?_eq_some moved
    simp [Walk.remaining, Walk.unvisited, Walker.ahead, leaving, shape, Node.countAll]
    omega
  · obtain ⟨step, steps, shape, rfl⟩ := Walker.up?_eq_some moved
    simp [Walk.remaining, Walk.unvisited, Walker.ahead, leaving, shape]
    omega

/-- Walks on to the end. -/
def finish (s : Survey) (w : Walk) : List Boundary :=
  match stepped : s.step w with
  | .inl next =>
    have := remaining_step_lt stepped
    finish s next
  | .inr records => records
termination_by w.remaining

/-- The declarations at and below a cursor, in pre-order. -/
def boundaries (s : Survey) (c : Cursor) : List Boundary :=
  s.finish (.start c)

end Survey

end DeclSplit

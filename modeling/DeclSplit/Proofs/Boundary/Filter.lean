import DeclSplit.Proofs.Boundary.Hierarchy

/-!
What a narrower filter leaves. A filter decides which nodes are recorded and give their names to what is
below them, and nothing else: every node is visited all the same. So a filter that accepts less leaves out
the records of the nodes that it does not accept and the names that these gave, and changes nothing in the
other records.
-/

namespace DeclSplit

open Cursor

theorem Cursor.pairwise_through (path : List Frame) : (through path).Pairwise fun near far => far ∈ near.ancestors := by
  induction path with
  | nil => exact .nil
  | cons frame path ih => exact List.pairwise_cons.mpr ⟨fun far member => member, ih⟩

/-- A record without its parents. -/
def Boundary.withoutParents (b : Boundary) : Boundary := { b with parents := [] }

namespace Survey
variable {s : Survey} {c d : Cursor} {f g : Filter}

/-- The same survey under another filter. -/
def under (s : Survey) (f : Filter) : Survey := { s with filter := f }

/-! ### Who gives names -/

/-- The nodes that give the names around `d`, outermost first, each with the name that it gives. -/
def givers (s : Survey) (c d : Cursor) : List (Cursor × String) :=
  ((ancestorsWithin c d).filterMap fun a => (s.given a).map (a, ·)).reverse

theorem enclosing_eq_givers (s : Survey) (c d : Cursor) : s.enclosing c d = (s.givers c d).map (·.2) := by
  rw [enclosing, givers, List.map_reverse, List.map_filterMap]
  congr 2
  funext a
  cases s.given a <;> rfl

theorem mem_givers (below : Below c d) {a : Cursor} {name : String} :
    (a, name) ∈ s.givers c d ↔ a ∈ d.ancestors ∧ Below c a ∧ s.keeps a = true ∧
      Naming.name? s.language s.source a = some name := by
  simp only [givers, List.mem_reverse, List.mem_filterMap, Option.map_eq_some_iff, Prod.mk.injEq]
  rw [← given_eq_some, ← and_assoc, ← mem_ancestorsWithin below]
  constructor
  · rintro ⟨_, within, _, gives, rfl, rfl⟩
    exact ⟨within, gives⟩
  · rintro ⟨within, gives⟩
    exact ⟨a, within, name, gives, rfl, rfl⟩

theorem pairwise_givers (s : Survey) (c d : Cursor) :
    (s.givers c d).Pairwise fun outer inner => outer.1 ∈ inner.1.ancestors := by
  have above : (ancestorsWithin c d).Pairwise fun near far => far ∈ near.ancestors :=
    (pairwise_through d.path).filter _
  rw [givers, List.pairwise_reverse, List.pairwise_filterMap]
  refine above.imp fun {near far} member inner hinner outer houter => ?_
  obtain ⟨_, -, rfl⟩ := Option.map_eq_some_iff.mp hinner
  obtain ⟨_, -, rfl⟩ := Option.map_eq_some_iff.mp houter
  exact member

/-! ### Two filters -/

section Narrower
variable (narrower : ∀ d, f s.language d = true → g s.language d = true)
include narrower

theorem keeps_of_narrower (d : Cursor) : (s.under f).keeps d = ((s.under g).keeps d && f s.language d) := by
  cases accepts : f s.language d with
  | false => simp [keeps, under, accepts]
  | true =>
    have wider := narrower d accepts
    simp [keeps, under, accepts, wider]

theorem kept_of_narrower (c : Cursor) : (s.under f).kept c = ((s.under g).kept c).filter (f s.language) := by
  rw [kept, kept, List.filter_filter]
  apply List.filter_congr
  intro d _
  rw [keeps_of_narrower narrower, Bool.and_comm]

theorem given_of_narrower (d : Cursor) :
    (s.under f).given d = if f s.language d then (s.under g).given d else none := by
  rw [given, given, keeps_of_narrower narrower]
  cases f s.language d with
  | false => simp
  | true => rw [Bool.and_true]; rfl

/-- Under the narrower filter, those give names that gave them and are still accepted. -/
theorem givers_of_narrower (c d : Cursor) :
    (s.under f).givers c d = ((s.under g).givers c d).filter fun giver => f s.language giver.1 := by
  rw [givers, givers, List.filter_reverse, List.filter_filterMap]
  congr 2
  funext a
  rw [given_of_narrower narrower]
  cases accepts : f s.language a <;> cases (s.under g).given a <;> simp [accepts, Option.filter]

end Narrower

/-- The records of the node at `d` under two filters, of which `f` accepts less than `g`. They differ in their
parents alone. The parents under `g` are given by the kept nodes above that have a name, outermost first, and
of these names those are left under `f` that are given by a node that `f` accepts. -/
structure Narrows (s : Survey) (f g : Filter) (c d : Cursor) (narrow wide : Boundary) : Prop where
  same : narrow.withoutParents = wide.withoutParents
  giver : ∀ a name, (a, name) ∈ (s.under g).givers c d ↔ a ∈ d.ancestors ∧ Below c a ∧
    (s.under g).keeps a = true ∧ Naming.name? s.language s.source a = some name
  outermostFirst : ((s.under g).givers c d).Pairwise fun outer inner => outer.1 ∈ inner.1.ancestors
  wideParents : wide.parents = ((s.under g).givers c d).map (·.2)
  narrowParents : narrow.parents = (((s.under g).givers c d).filter fun giver => f s.language giver.1).map (·.2)
  sublist : narrow.parents.Sublist wide.parents

/-- A filter that accepts less only takes away: the records are those of the nodes that were recorded before and
are accepted, in the same order, each as it was but for the parents that are not accepted any more. -/
theorem narrower_filter_restricts (s : Survey) (c : Cursor) {f g : Filter}
    (narrower : ∀ d, f s.language d = true → g s.language d = true) :
    (s.under g).boundaries c =
        ((s.under g).kept c).map (fun d => (s.under g).record d ((s.under g).enclosing c d)) ∧
      (s.under f).boundaries c =
        (((s.under g).kept c).filter (f s.language)).map (fun d => (s.under f).record d ((s.under f).enclosing c d)) ∧
      ∀ d ∈ ((s.under g).kept c).filter (f s.language), s.Narrows f g c d
        ((s.under f).record d ((s.under f).enclosing c d)) ((s.under g).record d ((s.under g).enclosing c d)) := by
  refine ⟨boundaries_eq_records _ c, ?_, fun d member => ?_⟩
  · rw [boundaries_eq_records, kept_of_narrower narrower]
  · have below := (mem_kept.mp (List.mem_filter.mp member).1).1
    have wide := enclosing_eq_givers (s.under g) c d
    have narrow := enclosing_eq_givers (s.under f) c d
    rw [givers_of_narrower narrower] at narrow
    refine ⟨rfl, fun a name => mem_givers below, pairwise_givers _ c d, wide, narrow, ?_⟩
    change ((s.under f).enclosing c d).Sublist ((s.under g).enclosing c d)
    rw [wide, narrow]
    exact List.filter_sublist.map _

def documented : Survey := ofLanguage .javaScript documentedSource Filter.acceptAll

def methodsOnly : Filter := .ofKinds ["method_definition"]

/-- Without the class, its name is not around the method any more. -/
theorem documented_methods_only :
    (∀ d, methodsOnly .javaScript d = true → Filter.acceptAll .javaScript d = true) ∧
      (documented.under methodsOnly).boundaries (.ofRoot documentedTree) =
        [⟨"method_definition", [], some "m", 24, 30, "m() \x7b\x7d", "", 2, 2⟩] ∧
      ∀ d ∈ ((documented.under .acceptAll).kept (.ofRoot documentedTree)).filter (methodsOnly .javaScript),
        documented.Narrows methodsOnly .acceptAll (.ofRoot documentedTree) d
          ((documented.under methodsOnly).record d
            ((documented.under methodsOnly).enclosing (.ofRoot documentedTree) d))
          ((documented.under .acceptAll).record d
            ((documented.under .acceptAll).enclosing (.ofRoot documentedTree) d)) := by
  have narrower : ∀ d, methodsOnly .javaScript d = true → Filter.acceptAll .javaScript d = true := fun _ _ => rfl
  obtain ⟨-, restricted, narrows⟩ := narrower_filter_restricts documented (.ofRoot documentedTree) narrower
  refine ⟨narrower, ?_, narrows⟩
  rw [restricted]
  decide +kernel

end Survey

end DeclSplit

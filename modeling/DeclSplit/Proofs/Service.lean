import DeclSplit.Proofs.Grammar
import DeclSplit.Service

/-!
What a service answers at a store. Where loads always come out the same, the answer depends on the
store only through the mark of the parser: a parser that is not marked answers as the first one of a
new store does.
-/

namespace DeclSplit

open ParserStore

namespace Service
variable {s : Service} {store : ParserStore} {l : Language}

/-- The answer at a language, when loads always come out the same: an error if there is no parser or the
parser is marked, and else the answer that would be given at a new store. -/
structure Settles {α : Type} (s : Service) (l : Language) (marked : Prop) (answer fresh : Except ChunkError α) :
    Prop where
  incompatible : ∀ {reason}, s.loader 0 l = .incompatible reason →
    answer = .error (.grammarBinding l.id reason)
  missing : ∀ {error}, s.loader 0 l = .missing error → answer = .error (.noParser l.id)
  poisoned : ∀ {grammar}, s.loader 0 l = .ready grammar → marked →
    answer = .error (.cache s!"parser lock poisoned for {l.id}")
  ready : ∀ {grammar}, s.loader 0 l = .ready grammar → ¬marked → answer = fresh

theorem Settles.map {α β : Type} {marked : Prop} {answer fresh : Except ChunkError α}
    (settles : s.Settles l marked answer fresh) (f : α → β) :
    s.Settles l marked (answer.map f) (fresh.map f) where
  incompatible unbound := by
    rw [settles.incompatible unbound]
    rfl
  missing absent := by
    rw [settles.missing absent]
    rfl
  poisoned loaded mark := by
    rw [settles.poisoned loaded mark]
    rfl
  ready loaded unmarked := by rw [settles.ready loaded unmarked]

/-- The number of a parser does not matter to a tree. -/
theorem tree_loadSlot (steady : s.loader.Steady) (source : String) (l : Language) (m n : Nat) :
    s.tree source l (answer (loadSlot s.loader l m)) = s.tree source l (answer (loadSlot s.loader l n)) := by
  unfold loadSlot
  rw [steady m n]
  cases s.loader n l <;> rfl

/-- A parser that is not marked makes the trees that the first one of a new store makes. -/
theorem tree_of_unpoisoned (steady : s.loader.Steady) (intact : store.Intact s.loader)
    (unmarked : store.poisoned l = false) (source : String) :
    s.tree source l (answer (store.request s.loader l).1) =
      s.tree source l (answer (empty.request s.loader l).1) := by
  obtain ⟨⟨n, loaded⟩, mark⟩ := request_fst intact l
  rw [Slot.loaded_of_unpoisoned (mark.trans unmarked)] at loaded
  rw [loaded]
  exact tree_loadSlot steady source l n 0

theorem tree_settles (steady : s.loader.Steady) (intact : store.Intact s.loader) (source : String)
    (l : Language) :
    s.Settles l (store.poisoned l = true) (s.tree source l (answer (store.request s.loader l).1))
      (s.tree source l (answer (empty.request s.loader l).1)) := by
  have unpoisoned := tree_of_unpoisoned (l := l) steady intact
  obtain ⟨⟨n, loaded⟩, mark⟩ := request_fst intact l
  rw [← mark] at unpoisoned ⊢
  generalize (store.request s.loader l).1 = slot at loaded unpoisoned
  have outcome : s.loader n l = s.loader 0 l := by rw [steady n 0]
  constructor
  case incompatible =>
    intro reason unbound
    have broken : slot.loaded = .broken (.grammarBinding l.id reason) := by
      simp [loaded, loadSlot, outcome, unbound]
    cases slot <;> cases broken
    rfl
  case missing =>
    intro error absent
    have unavailable : slot.loaded = .unavailable error := by simp [loaded, loadSlot, outcome, absent]
    cases slot <;> cases unavailable
    rfl
  case poisoned =>
    intro grammar found marked
    cases slot with
    | ready parser =>
      have held : parser.poisoned = true := marked
      simp [answer, tree, held]
    | unavailable | broken => cases marked
  case ready =>
    intro grammar found unmarked
    exact unpoisoned (by simpa using unmarked) source

theorem extract_settles (steady : s.loader.Steady) (intact : store.Intact s.loader) (source : String)
    (l : Language) :
    s.Settles l (store.poisoned l = true) (s.extract source l store).1 (s.extract source l .empty).1 :=
  (tree_settles steady intact source l).map _

/-- Stores with the same marks give the same answers. -/
theorem extract_of_alike {other : ParserStore} (steady : s.loader.Steady) (alike : Alike s.loader store other)
    (source : String) (l : Language) : (s.extract source l store).1 = (s.extract source l other).1 := by
  have here := extract_settles steady alike.intact source l
  have there := extract_settles steady alike.other_intact source l
  rw [← alike.poisoned l] at there
  cases outcome : s.loader 0 l with
  | incompatible reason => rw [here.incompatible outcome, there.incompatible outcome]
  | missing error => rw [here.missing outcome, there.missing outcome]
  | ready grammar =>
    by_cases marked : store.poisoned l = true
    · rw [here.poisoned outcome marked, there.poisoned outcome marked]
    · rw [here.ready outcome marked, there.ready outcome marked]

/-- A language that was found is not refused for its name. -/
theorem extract_ne_unsupported (intact : store.Intact s.loader) (source name : String) (l : Language) :
    (s.extract source l store).1 ≠ .error (.unsupportedLanguage name) := by
  obtain ⟨⟨n, loaded⟩, -⟩ := request_fst intact l
  have answered : (s.extract source l store).1 = (s.tree source l (answer (store.request s.loader l).1)).map
      fun root => (Survey.ofLanguage l source s.filter).boundaries (.ofRoot root) := rfl
  rw [answered]
  generalize (store.request s.loader l).1 = slot at loaded
  intro refused
  cases slot with
  | ready parser =>
    simp only [answer, tree] at refused
    split at refused
    · cases refused
    · split at refused <;> cases refused
  | unavailable error => cases refused
  | broken error =>
    cases refused
    unfold loadSlot at loaded
    split at loaded <;> cases loaded

end Service

end DeclSplit

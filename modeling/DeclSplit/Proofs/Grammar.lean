import DeclSplit.Grammar

/-!
What a store of parsers keeps. Whoever asks for a language finds what came of its load, and only the
first one makes the store load: the outcome of a load and its number stay until the store is cleared.
A parser that someone failed to give back is marked, which changes nothing else.
-/

namespace DeclSplit

/-- What comes of a load is the same at all times. -/
def Loader.Steady (loader : Loader) : Prop :=
  ∀ m n, loader m = loader n

/-- Why there is no parser after a load. -/
def LoadOutcome.error? (language : Language) : LoadOutcome → Option ChunkError
  | .missing error => some error
  | .incompatible reason => some (.grammarBinding language.id reason)
  | .ready _ => none

namespace Slot

/-- A slot as its load left it. -/
def loaded : Slot → Slot
  | .ready parser => .ready { parser with poisoned := false }
  | .unavailable error => .unavailable error
  | .broken error => .broken error

/-- Whether a user of the parser failed while holding it. -/
def poisoned : Slot → Bool
  | .ready parser => parser.poisoned
  | .unavailable _ => false
  | .broken _ => false

/-- Why there is no parser. -/
def error? : Slot → Option ChunkError
  | .ready _ => none
  | .unavailable error => some error
  | .broken error => some error

theorem loaded_of_unpoisoned {slot : Slot} (unmarked : slot.poisoned = false) : slot.loaded = slot := by
  cases slot with
  | ready parser =>
    obtain ⟨grammar, serial, mark⟩ := parser
    obtain rfl : mark = false := unmarked
    rfl
  | unavailable | broken => rfl

end Slot

namespace ParserStore
variable {store before after : ParserStore} {loader : Loader} {l m : Language} {slot : Slot}

@[simp] theorem loaded_loadSlot (loader : Loader) (l : Language) (n : Nat) :
    (loadSlot loader l n).loaded = loadSlot loader l n := by
  unfold loadSlot
  split <;> rfl

@[simp] theorem poisoned_loadSlot (loader : Loader) (l : Language) (n : Nat) :
    (loadSlot loader l n).poisoned = false := by
  unfold loadSlot
  split <;> rfl

theorem error?_loadSlot (loader : Loader) (l : Language) (n : Nat) :
    (loadSlot loader l n).error? = (loader n l).error? l := by
  unfold loadSlot
  cases loader n l <;> rfl

theorem serial_of_loadSlot {n : Nat} {parser : Parser} (h : loadSlot loader l n = .ready parser) :
    parser.serial = n := by
  unfold loadSlot at h
  split at h <;> cases h
  rfl

/-! ### What came of loads -/

/-- What came of the load of a language, whatever happened to its parser since. -/
def outcome (store : ParserStore) (language : Language) : Option Slot :=
  (store.slots language).map Slot.loaded

/-- Whether a user of the parser of a language failed while holding it. -/
def poisoned (store : ParserStore) (language : Language) : Bool :=
  (store.slots language).any Slot.poisoned

@[simp] theorem outcome_empty (l : Language) : empty.outcome l = none := rfl

@[simp] theorem outcome_clear (store : ParserStore) (l : Language) : store.clear.outcome l = none := rfl

@[simp] theorem loads_clear (store : ParserStore) : store.clear.loads = store.loads := rfl

@[simp] theorem poisoned_clear (store : ParserStore) (l : Language) : store.clear.poisoned l = false := rfl

theorem slots_set (store : ParserStore) (l m : Language) (slot : Slot) :
    (store.set l slot).slots m = if m = l then some slot else store.slots m := rfl

theorem mem_cached : l ∈ store.cached ↔ (store.outcome l).isSome := by
  simp [cached, outcome, Language.mem_all]

theorem failure_eq_error? (store : ParserStore) (l : Language) :
    store.failure l = (store.outcome l).bind Slot.error? := by
  cases kept : store.slots l with
  | none => simp [failure, outcome, kept]
  | some slot => cases slot <;> simp [failure, outcome, kept, Slot.loaded, Slot.error?]

/-! ### Asking for a language -/

/-- How a store changes when someone asks for a language: not at all if it keeps something of the
language, else it keeps what comes of the load that it makes. -/
inductive Asked (loader : Loader) (language : Language) (before after : ParserStore) : Prop where
  | found (kept : (before.outcome language).isSome)
      (outcome : ∀ m, after.outcome m = before.outcome m) (loads : after.loads = before.loads)
  | loaded (missing : before.outcome language = none)
      (outcome : ∀ m, after.outcome m =
        if m = language then some (loadSlot loader language before.loads) else before.outcome m)
      (loads : after.loads = before.loads + 1)

theorem request_of_some (kept : store.slots l = some slot) : store.request loader l = (slot, store) := by
  simp [request, kept]

theorem request_of_none (missing : store.slots l = none) :
    store.request loader l = (loadSlot loader l store.loads,
      { store.set l (loadSlot loader l store.loads) with loads := store.loads + 1 }) := by
  simp [request, missing]

theorem slots_request_self (store : ParserStore) (loader : Loader) (l : Language) :
    (store.request loader l).2.slots l = some (store.request loader l).1 := by
  cases kept : store.slots l with
  | some slot => simpa [request_of_some kept] using kept
  | none => simp [request_of_none kept, slots_set]

theorem asked_request (store : ParserStore) (loader : Loader) (l : Language) :
    Asked loader l store (store.request loader l).2 := by
  cases kept : store.slots l with
  | some slot =>
    rw [request_of_some kept]
    exact .found (by simp [outcome, kept]) (fun _ => rfl) rfl
  | none =>
    rw [request_of_none kept]
    refine .loaded (by simp [outcome, kept]) (fun m => ?_) rfl
    by_cases same : m = l <;> simp [outcome, slots_set, same]

theorem poisoned_request (store : ParserStore) (loader : Loader) (l m : Language) :
    (store.request loader l).2.poisoned m = store.poisoned m := by
  cases kept : store.slots l with
  | some slot => rw [request_of_some kept]
  | none =>
    rw [request_of_none kept]
    by_cases same : m = l
    · subst same
      simp [poisoned, slots_set, kept]
    · simp [poisoned, slots_set, same]

/-! ### Marking a parser -/

/-- To mark a parser is to ask for it and to change its mark. -/
theorem poison_cases (store : ParserStore) (loader : Loader) (l : Language) :
    (∃ parser, (store.request loader l).1 = .ready parser ∧
      store.poison loader l =
        (store.request loader l).2.set l (.ready { parser with poisoned := true })) ∨
    (∀ parser, (store.request loader l).1 ≠ .ready parser) ∧
      store.poison loader l = (store.request loader l).2 := by
  unfold poison
  split
  · rename_i parser after asked
    exact Or.inl ⟨parser, by rw [asked], by rw [asked]⟩
  · rename_i slot after other asked
    rw [asked]
    exact Or.inr ⟨fun parser same => other parser same, rfl⟩

theorem outcome_poison (store : ParserStore) (loader : Loader) (l m : Language) :
    (store.poison loader l).outcome m = (store.request loader l).2.outcome m := by
  rcases store.poison_cases loader l with ⟨parser, ready, marked⟩ | ⟨-, same⟩
  · rw [marked]
    by_cases own : m = l
    · subst own
      simp [outcome, slots_set, slots_request_self, ready, Slot.loaded]
    · simp [outcome, slots_set, own]
  · rw [same]

theorem loads_poison (store : ParserStore) (loader : Loader) (l : Language) :
    (store.poison loader l).loads = (store.request loader l).2.loads := by
  rcases store.poison_cases loader l with ⟨parser, -, marked⟩ | ⟨-, same⟩
  · rw [marked]
    rfl
  · rw [same]

theorem asked_poison (store : ParserStore) (loader : Loader) (l : Language) :
    Asked loader l store (store.poison loader l) := by
  cases store.asked_request loader l with
  | found kept outcome loads =>
    exact .found kept (fun m => (outcome_poison ..).trans (outcome m)) ((loads_poison ..).trans loads)
  | loaded missing outcome loads =>
    exact .loaded missing (fun m => (outcome_poison ..).trans (outcome m)) ((loads_poison ..).trans loads)

theorem poisoned_poison (store : ParserStore) (loader : Loader) (l m : Language) :
    (store.poison loader l).poisoned m = true ↔ store.poisoned m = true ∨
      m = l ∧ ∃ parser, (store.request loader l).1 = .ready parser := by
  rcases store.poison_cases loader l with ⟨parser, ready, marked⟩ | ⟨other, same⟩
  · rw [marked]
    by_cases own : m = l
    · subst own
      simp [poisoned, slots_set, Slot.poisoned, ready]
    · rw [← poisoned_request store loader l m]
      simp [poisoned, slots_set, own]
  · rw [same, poisoned_request]
    simp [other]

/-! ### Numbers of parsers -/

/-- Parsers have the numbers of loads that were made, and no two languages share one. -/
structure Numbered (store : ParserStore) : Prop where
  below : ∀ {l parser}, store.outcome l = some (.ready parser) → parser.serial < store.loads
  distinct : ∀ {l m p q}, store.outcome l = some (.ready p) → store.outcome m = some (.ready q) →
    p.serial = q.serial → l = m

/-- Parsers that are kept after but not before have numbers of later loads. -/
structure Follows (before after : ParserStore) : Prop where
  loads : before.loads ≤ after.loads
  parsers : ∀ {l parser}, after.outcome l = some (.ready parser) →
    before.outcome l = some (.ready parser) ∨ before.loads ≤ parser.serial

/-- Everything that is kept came of a load. -/
def Intact (loader : Loader) (store : ParserStore) : Prop :=
  ∀ l slot, store.outcome l = some slot → ∃ n, slot = loadSlot loader l n

namespace Asked

/-- What was kept before is kept after. -/
theorem outcome_eq (asked : Asked loader l before after) (kept : before.outcome m = some slot) :
    after.outcome m = some slot := by
  cases asked with
  | found _ outcome _ => rw [outcome, kept]
  | loaded missing outcome _ =>
    have other : m ≠ l := by
      rintro rfl
      simp [kept] at missing
    rw [outcome, if_neg other, kept]

/-- What is kept after was kept before, or came of the load that was made. -/
theorem cases_outcome (asked : Asked loader l before after) (kept : after.outcome m = some slot) :
    before.outcome m = some slot ∨ m = l ∧ after.loads = before.loads + 1 ∧
      slot = loadSlot loader l before.loads := by
  cases asked with
  | found _ outcome _ => exact Or.inl (by rw [← outcome, kept])
  | loaded _ outcome loads =>
    rw [outcome] at kept
    split at kept
    · rename_i own
      exact Or.inr ⟨own, loads, (Option.some.inj kept).symm⟩
    · exact Or.inl kept

theorem isSome_outcome (asked : Asked loader l before after) (m : Language) :
    (after.outcome m).isSome ↔ m = l ∨ (before.outcome m).isSome := by
  cases asked with
  | found kept outcome _ =>
    rw [outcome]
    refine ⟨Or.inr, ?_⟩
    rintro (rfl | same)
    · exact kept
    · exact same
  | loaded _ outcome _ =>
    rw [outcome]
    split <;> simp_all

theorem loads_le (asked : Asked loader l before after) : before.loads ≤ after.loads := by
  cases asked with
  | found _ _ loads => exact Nat.le_of_eq loads.symm
  | loaded _ _ loads => omega

theorem follows (asked : Asked loader l before after) : Follows before after where
  loads := asked.loads_le
  parsers := by
    intro m parser kept
    rcases asked.cases_outcome kept with old | ⟨-, -, new⟩
    · exact Or.inl old
    · exact Or.inr (Nat.le_of_eq (serial_of_loadSlot new.symm).symm)

theorem numbered (asked : Asked loader l before after) (numbered : before.Numbered) : after.Numbered where
  below := by
    intro m parser kept
    rcases asked.cases_outcome kept with old | ⟨-, loads, new⟩
    · exact Nat.lt_of_lt_of_le (numbered.below old) asked.loads_le
    · rw [serial_of_loadSlot new.symm, loads]
      exact Nat.lt_succ_self _
  distinct := by
    -- A new number is that of no load before, so it differs from all old ones.
    intro m k p q hp hq same
    rcases asked.cases_outcome hp with oldp | ⟨rfl, -, newp⟩ <;>
      rcases asked.cases_outcome hq with oldq | ⟨rfl, -, newq⟩
    · exact numbered.distinct oldp oldq same
    · have := numbered.below oldp
      rw [same, serial_of_loadSlot newq.symm] at this
      exact absurd this (Nat.lt_irrefl _)
    · have := numbered.below oldq
      rw [← same, serial_of_loadSlot newp.symm] at this
      exact absurd this (Nat.lt_irrefl _)
    · rfl

theorem intact (asked : Asked loader l before after) (intact : before.Intact loader) :
    after.Intact loader := by
  intro m slot kept
  rcases asked.cases_outcome kept with old | ⟨rfl, -, new⟩
  · exact intact _ _ old
  · exact ⟨_, new⟩

end Asked

namespace Follows

theorem refl (store : ParserStore) : Follows store store :=
  ⟨Nat.le_refl _, Or.inl⟩

theorem trans {middle : ParserStore} (first : Follows before middle) (second : Follows middle after) :
    Follows before after where
  loads := Nat.le_trans first.loads second.loads
  parsers kept := by
    rcases second.parsers kept with old | new
    · exact first.parsers old
    · exact Or.inr (Nat.le_trans first.loads new)

theorem clear (store : ParserStore) : Follows store store.clear :=
  ⟨Nat.le_refl _, fun kept => by simp at kept⟩

end Follows

theorem numbered_empty : empty.Numbered :=
  ⟨fun kept => by simp at kept, fun kept => by simp at kept⟩

theorem numbered_clear (store : ParserStore) : store.clear.Numbered :=
  ⟨fun kept => by simp at kept, fun kept => by simp at kept⟩

theorem intact_empty (loader : Loader) : empty.Intact loader :=
  fun _ _ kept => by simp at kept

theorem intact_clear (loader : Loader) (store : ParserStore) : store.clear.Intact loader :=
  fun _ _ kept => by simp at kept

/-- Stores that keep nothing but what came of loads, with the same parsers marked in both. -/
structure Alike (loader : Loader) (store other : ParserStore) : Prop where
  intact : store.Intact loader
  other_intact : other.Intact loader
  poisoned : ∀ l, store.poisoned l = other.poisoned l

theorem Alike.refl (intact : store.Intact loader) : Alike loader store store :=
  ⟨intact, intact, fun _ => rfl⟩

theorem Alike.request {other : ParserStore} (alike : Alike loader store other) (l : Language) :
    Alike loader (store.request loader l).2 other where
  intact := (store.asked_request loader l).intact alike.intact
  other_intact := alike.other_intact
  poisoned m := (poisoned_request store loader l m).trans (alike.poisoned m)

/-- A parser that is given out has the number of the one that is kept. -/
theorem outcome_of_given {parser : Parser} (given : (store.parser loader l).1 = .ok (some parser)) :
    ∃ kept : Parser, kept.serial = parser.serial ∧ (store.parser loader l).2.outcome l = some (.ready kept) := by
  have kept := store.slots_request_self loader l
  have answered : answer (store.request loader l).1 = .ok (some parser) := given
  cases slot : (store.request loader l).1 with
  | ready found =>
    rw [slot] at answered kept
    cases answered
    exact ⟨{ parser with poisoned := false }, rfl, by simp [ParserStore.parser, outcome, kept, Slot.loaded]⟩
  | unavailable error =>
    rw [slot] at answered
    cases answered
  | broken error =>
    rw [slot] at answered
    cases answered

/-- Who asks gets what came of a load, with the mark that the parser bears. -/
theorem request_fst (intact : store.Intact loader) (l : Language) :
    (∃ n, (store.request loader l).1.loaded = loadSlot loader l n) ∧
      (store.request loader l).1.poisoned = store.poisoned l := by
  cases kept : store.slots l with
  | some slot =>
    rw [request_of_some kept]
    exact ⟨intact l _ (by simp [outcome, kept]), by simp [poisoned, kept]⟩
  | none =>
    rw [request_of_none kept]
    exact ⟨⟨_, loaded_loadSlot ..⟩, by simp [poisoned, kept]⟩

end ParserStore

end DeclSplit

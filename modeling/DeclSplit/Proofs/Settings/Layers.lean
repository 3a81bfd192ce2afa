import DeclSplit.Proofs.Settings.Source
import DeclSplit.Proofs.Settings.Validation
import Mathlib.Data.List.Induction
import Mathlib.Data.List.Nodup

/-!
Settings put together from any sources, whatever they make of the settings before them. What comes out
depends on the order of registration only between sources of equal priority, and a source that never loads
might as well not be there unless it is required. Of the required sources the first one that fails decides;
if there is none, the sources are laid one over the other and the result has to be valid.
-/

namespace DeclSplit

/-- A source that fails whatever came before it, and whose failures are passed over. -/
structure Registered.Inert (r : Registered) : Prop where
  passedOver : r.required = false
  fails : ∀ base, ∃ error, r.source.load base = .error error

namespace Settings

/-! ### The order of sources -/

/-- `other` has the sources of `sources` in an order that leaves those of each priority as they were. -/
structure Rearranges (sources other : List Registered) : Prop where
  perm : other.Perm sources
  ties : ∀ p, other.filter (·.source.priority = p) = sources.filter (·.source.priority = p)

/-- The sources by priority, those of equal priority as they were registered. -/
structure InOrder (sources order : List Registered) : Prop extends Rearranges sources order where
  sorted : order.Pairwise fun a b => a.source.priority ≤ b.source.priority

theorem inOrder_ordered (sources : List Registered) : InOrder sources (ordered sources) where
  perm := List.mergeSort_perm sources _
  ties := filter_ordered sources
  sorted := pairwise_ordered sources

theorem InOrder.ordered_eq {sources order : List Registered} (inOrder : InOrder sources order) :
    ordered sources = order :=
  Settings.ordered_eq inOrder.sorted fun p => (inOrder.ties p).symm

theorem Rearranges.ordered_eq {sources other : List Registered} (rearranges : Rearranges sources other) :
    ordered other = ordered sources :=
  Settings.ordered_eq (pairwise_ordered sources) fun p =>
    (rearranges.ties p).trans (filter_ordered sources p).symm

theorem load_rearranged {sources other : List Registered} (rearranges : Rearranges sources other) :
    load other = load sources := by
  unfold load
  rw [rearranges.ordered_eq]

/-- Sources of different priorities may be registered in any order. -/
theorem rearranges_of_distinct {sources other : List Registered}
    (distinct : (sources.map (·.source.priority)).Nodup) (perm : other.Perm sources) : Rearranges sources other where
  perm
  ties p := by
    have filtered := perm.filter (·.source.priority = p)
    have once : (sources.filter (·.source.priority = p)).length ≤ 1 := by
      have count := List.nodup_iff_count_le_one.mp distinct p
      rw [List.count_eq_countP, List.countP_map, List.countP_eq_length_filter] at count
      exact count
    generalize sources.filter (·.source.priority = p) = alike at filtered once ⊢
    rcases alike with _ | ⟨a, _ | ⟨b, rest⟩⟩
    · exact filtered.eq_nil
    · exact List.perm_singleton.mp filtered
    · simp at once

/-- Taking sources out does not move the others. -/
theorem filter_ordered_comm (sources : List Registered) (keep : Registered → Bool) :
    ordered (sources.filter keep) = (ordered sources).filter keep := by
  apply Settings.ordered_eq ((pairwise_ordered sources).filter keep)
  intro p
  have swap : ∀ l : List Registered,
      (l.filter keep).filter (·.source.priority = p) = (l.filter (·.source.priority = p)).filter keep := by
    intro l
    simp only [List.filter_filter, Bool.and_comm]
  rw [swap, swap, filter_ordered]

/-! ### Sources that are passed over -/

theorem apply_inert {r : Registered} (inert : r.Inert) (base : Settings) : apply base r = .ok base := by
  obtain ⟨error, fails⟩ := inert.fails base
  simp [apply, fails, inert.passedOver]

open Classical in
theorem foldlM_without_inert (base : Settings) (order : List Registered) :
    (order.filter fun r => ¬r.Inert).foldlM apply base = order.foldlM apply base := by
  induction order generalizing base with
  | nil => rfl
  | cons r order ih =>
    by_cases inert : r.Inert
    · rw [List.filter_cons_of_neg (by simpa using inert), ih, List.foldlM_cons, apply_inert inert]
      rfl
    · rw [List.filter_cons_of_pos (by simpa using inert), List.foldlM_cons, List.foldlM_cons]
      cases apply base r with
      | error error => rfl
      | ok next => exact ih next

open Classical in
theorem load_without_inert (sources : List Registered) :
    load (sources.filter fun r => ¬r.Inert) = load sources := by
  unfold load
  rw [filter_ordered_comm, foldlM_without_inert]

theorem load_insert_inert (before after : List Registered) {r : Registered} (inert : r.Inert) :
    load (before ++ r :: after) = load (before ++ after) := by
  classical
  rw [← load_without_inert (before ++ r :: after), ← load_without_inert (before ++ after), List.filter_append,
    List.filter_append, List.filter_cons_of_neg (by simpa using inert)]

/-! ### The first required source that fails -/

/-- The settings after sources one after the other, where every failure is passed over. -/
def layered (order : List Registered) : Settings :=
  order.foldl (fun base r => (r.source.load base).toOption.getD base) {}

/-- No required source fails on the settings that come of the sources before it. -/
def AllLoad (order : List Registered) : Prop :=
  ∀ before r after, order = before ++ r :: after → r.required = true →
    ∃ settings, r.source.load (layered before) = .ok settings

/-- `r` is required and fails on the settings that come of the sources before it, none of which is required
and fails. -/
def FailsFirst (order : List Registered) (r : Registered) (error : SettingsError) : Prop :=
  ∃ before after, order = before ++ r :: after ∧ AllLoad before ∧ r.required = true ∧
    r.source.load (layered before) = .error error

theorem layered_concat (order : List Registered) (r : Registered) :
    layered (order ++ [r]) = (r.source.load (layered order)).toOption.getD (layered order) := by
  rw [layered, List.foldl_concat]
  rfl

/-- A source among others and one more is that one or stands among the others. -/
theorem concat_eq_split {order before after : List Registered} {last r : Registered}
    (split : order ++ [last] = before ++ r :: after) :
    (before = order ∧ r = last) ∨ ∃ rest, order = before ++ r :: rest := by
  rcases List.eq_nil_or_concat after with rfl | ⟨rest, final, rfl⟩
  · obtain ⟨rfl, same⟩ := List.append_inj' split rfl
    exact Or.inl ⟨rfl, (List.cons.inj same).1.symm⟩
  · rw [List.concat_eq_append, ← List.cons_append, ← List.append_assoc] at split
    exact Or.inr ⟨rest, (List.append_inj' split rfl).1⟩

theorem allLoad_concat {order : List Registered} {r : Registered} :
    AllLoad (order ++ [r]) ↔
      AllLoad order ∧ (r.required = true → ∃ settings, r.source.load (layered order) = .ok settings) := by
  constructor
  · intro all
    refine ⟨fun before q after split required => ?_, fun required => all order r [] rfl required⟩
    exact all before q (after ++ [r]) (by rw [split, List.append_assoc, List.cons_append]) required
  · rintro ⟨all, last⟩ before q after split required
    rcases concat_eq_split split with ⟨rfl, rfl⟩ | ⟨rest, inside⟩
    · exact last required
    · exact all before q rest inside required

theorem not_allLoad_of_failsFirst {order : List Registered} {r : Registered} {error : SettingsError}
    (first : FailsFirst order r error) : ¬AllLoad order := by
  obtain ⟨before, after, split, -, required, fails⟩ := first
  intro all
  obtain ⟨settings, loads⟩ := all before r after split required
  rw [fails] at loads
  cases loads

/-- Either all required sources load, or there is a first one that does not. -/
theorem allLoad_or_failsFirst (order : List Registered) :
    AllLoad order ∨ ∃ r error, FailsFirst order r error := by
  induction order using List.reverseRecOn with
  | nil => exact Or.inl fun before r after split => by simp at split
  | append_singleton order last ih =>
    rcases ih with all | ⟨r, error, before, after, rfl, all, required, fails⟩
    · cases loads : last.source.load (layered order) with
      | ok settings => exact Or.inl (allLoad_concat.mpr ⟨all, fun _ => ⟨settings, loads⟩⟩)
      | error error =>
        by_cases required : last.required = true
        · exact Or.inr ⟨last, error, order, [], rfl, all, required, loads⟩
        · exact Or.inl (allLoad_concat.mpr ⟨all, fun isRequired => absurd isRequired required⟩)
    · exact Or.inr ⟨r, error, before, after ++ [last], by rw [List.append_assoc, List.cons_append], all,
        required, fails⟩

theorem foldlM_of_allLoad {order : List Registered} (all : AllLoad order) :
    order.foldlM apply {} = .ok (layered order) := by
  induction order using List.reverseRecOn with
  | nil => rfl
  | append_singleton order last ih =>
    obtain ⟨before, required⟩ := allLoad_concat.mp all
    rw [List.foldlM_append, ih before, layered_concat]
    change (apply (layered order) last >>= pure) = _
    cases loads : last.source.load (layered order) with
    | ok settings =>
      rw [apply, loads]
      rfl
    | error error =>
      -- A failure stays without effect, as a source that is required does not fail here.
      have passedOver : ¬last.required = true := fun isRequired => by
        obtain ⟨settings, ok⟩ := required isRequired
        rw [loads] at ok
        cases ok
      rw [apply, loads]
      simp only [passedOver]
      rfl

theorem foldlM_of_failsFirst {order : List Registered} {r : Registered} {error : SettingsError}
    (first : FailsFirst order r error) : order.foldlM apply {} = .error error := by
  obtain ⟨before, after, rfl, all, required, fails⟩ := first
  have stops : apply (layered before) r = .error error := by
    rw [apply, fails]
    exact if_pos required
  rw [List.foldlM_append, foldlM_of_allLoad all]
  change (r :: after).foldlM apply (layered before) = _
  rw [List.foldlM_cons, stops]
  rfl

theorem load_of_allLoad {sources order : List Registered} (inOrder : InOrder sources order) (all : AllLoad order) :
    load sources = ((layered order).validate >>= fun _ => .ok (layered order)) := by
  unfold load
  rw [inOrder.ordered_eq, foldlM_of_allLoad all]
  rfl

theorem load_of_failsFirst {sources order : List Registered} {r : Registered} {error : SettingsError}
    (inOrder : InOrder sources order) (first : FailsFirst order r error) : load sources = .error error := by
  unfold load
  rw [inOrder.ordered_eq, foldlM_of_failsFirst first]
  rfl

theorem load_eq_ok_iff {sources order : List Registered} (inOrder : InOrder sources order) {s : Settings} :
    load sources = .ok s ↔ AllLoad order ∧ s = layered order ∧ s.validate = .ok () := by
  rcases allLoad_or_failsFirst order with all | ⟨r, error, first⟩
  · rw [load_of_allLoad inOrder all, Validation.andThen_eq_ok_iff]
    constructor
    · rintro ⟨valid, same⟩
      cases same
      exact ⟨all, rfl, valid⟩
    · rintro ⟨-, rfl, valid⟩
      exact ⟨valid, rfl⟩
  · rw [load_of_failsFirst inOrder first]
    constructor
    · intro loaded
      cases loaded
    · rintro ⟨all, -⟩
      exact absurd all (not_allLoad_of_failsFirst first)

theorem load_eq_error_iff {sources order : List Registered} (inOrder : InOrder sources order)
    {error : SettingsError} :
    load sources = .error error ↔
      (∃ r, FailsFirst order r error) ∨ (AllLoad order ∧ (layered order).validate = .error error) := by
  constructor
  · intro failed
    rcases allLoad_or_failsFirst order with all | ⟨r, reason, first⟩
    · rw [load_of_allLoad inOrder all] at failed
      cases invalid : (layered order).validate with
      | error reason =>
        rw [invalid] at failed
        cases failed
        exact Or.inr ⟨all, rfl⟩
      | ok =>
        rw [invalid] at failed
        cases failed
    · rw [load_of_failsFirst inOrder first] at failed
      cases failed
      exact Or.inl ⟨r, first⟩
  · rintro (⟨r, first⟩ | ⟨all, invalid⟩)
    · exact load_of_failsFirst inOrder first
    · rw [load_of_allLoad inOrder all, invalid]
      rfl

/-- What sources give together. Another order of registration that keeps the order of sources of equal priority
gives the same, and so does one more source that always fails and is passed over. By priority, and for
equal priority as they were registered, the first required source that fails gives the error; else it is the
layers of all sources if they are valid, and else what is wrong with them. -/
theorem load_follows_priority (sources : List Registered) :
    (∀ other, Rearranges sources other → load other = load sources) ∧
    (∀ before r after, sources = before ++ after → r.Inert → load (before ++ r :: after) = load sources) ∧
    ∃ order, InOrder sources order ∧
      (∀ s, load sources = .ok s ↔ AllLoad order ∧ s = layered order ∧ s.validate = .ok ()) ∧
      ∀ error, load sources = .error error ↔
        (∃ r, FailsFirst order r error) ∨ (AllLoad order ∧ (layered order).validate = .error error) := by
  have inOrder := inOrder_ordered sources
  refine ⟨fun other => load_rearranged, ?_, ordered sources, inOrder, fun s => load_eq_ok_iff inOrder, fun error =>
    load_eq_error_iff inOrder⟩
  rintro before r after rfl inert
  exact load_insert_inert before after inert

end Settings

/-! ### A source that looks at what came before -/

def Source.files (count priority : Nat) : Source where
  name := "files"
  priority
  load := fun base => .ok { base with scan.concurrency := count }

def Source.atMost (most priority : Nat) : Source where
  name := "at most"
  priority
  load := fun base =>
    if base.scan.concurrency ≤ most then .ok base
    else .error (.outOfRange "scan.concurrency" base.scan.concurrency 1 most)

def Registered.unreadable : Registered := ⟨⟨"unreadable", 50, fun _ => .error .malformed⟩, false⟩

namespace Settings

/-- Sixteen files are set after the check for at most eight. -/
def setLater : List Registered := [⟨.files 16 90, false⟩, ⟨.atMost 8 50, true⟩, ⟨.files 4 10, false⟩]

/-- Sixteen files are set before the check. -/
def setBefore : List Registered := [⟨.files 4 90, false⟩, ⟨.atMost 8 50, true⟩, ⟨.files 16 10, false⟩]

theorem inOrder_reverse {sources : List Registered} (distinct : (sources.map (·.source.priority)).Nodup)
    (falling : sources.Pairwise fun a b => b.source.priority ≤ a.source.priority) :
    InOrder sources sources.reverse where
  toRearranges := rearranges_of_distinct distinct (List.reverse_perm sources)
  sorted := List.pairwise_reverse.mpr falling

theorem sixteen_set_after_check :
    (∃ s, load setLater = .ok s ∧ s.scan.concurrency = 16 ∧ s.validate = .ok ()) ∧
    Rearranges setLater setLater.reverse ∧ load setLater.reverse = load setLater ∧
    Registered.unreadable.Inert ∧ load (setLater ++ [.unreadable]) = load setLater ∧
    ∃ r, FailsFirst setBefore.reverse r (.outOfRange "scan.concurrency" 16 1 8) ∧
      load setBefore = .error (.outOfRange "scan.concurrency" 16 1 8) := by
  have inert : Registered.unreadable.Inert := ⟨rfl, fun base => ⟨_, rfl⟩⟩
  have inOrderLater : InOrder setLater setLater.reverse := inOrder_reverse (by decide) (by decide)
  have inOrderBefore : InOrder setBefore setBefore.reverse := inOrder_reverse (by decide) (by decide)
  obtain ⟨rearranged, inserted, order, inOrder, loads, -⟩ := load_follows_priority setLater
  obtain rfl : order = setLater.reverse := inOrder.ordered_eq.symm.trans inOrderLater.ordered_eq
  have all : AllLoad setLater.reverse := by
    rcases allLoad_or_failsFirst setLater.reverse with all | ⟨r, error, first⟩
    · exact all
    · cases foldlM_of_failsFirst first
  have valid : (layered setLater.reverse).validate = .ok () := by decide +kernel
  have first : FailsFirst setBefore.reverse ⟨.atMost 8 50, true⟩ (.outOfRange "scan.concurrency" 16 1 8) := by
    refine ⟨[⟨.files 16 10, false⟩], [⟨.files 4 90, false⟩], rfl, ?_, rfl, rfl⟩
    intro before r after split required
    obtain ⟨rfl, rfl, rfl⟩ : before = [] ∧ r = ⟨.files 16 10, false⟩ ∧ after = [] := by
      simpa [List.singleton_eq_append_iff] using split
    cases required
  refine ⟨⟨_, (loads _).mpr ⟨all, rfl, valid⟩, rfl, valid⟩, inOrderLater.toRearranges,
    rearranged _ inOrderLater.toRearranges, inert, inserted setLater .unreadable [] (by simp) inert, _, first, ?_⟩
  obtain ⟨-, -, order, inOrder, -, fails⟩ := load_follows_priority setBefore
  obtain rfl : order = setBefore.reverse := inOrder.ordered_eq.symm.trans inOrderBefore.ordered_eq
  exact (fails _).mpr (Or.inl ⟨_, first⟩)

end Settings

end DeclSplit

import DeclSplit.Proofs.Service
import DeclSplit.Session
import Mathlib.Algebra.BigOperators.Group.List.Basic
import Mathlib.Algebra.GroupWithZero.Nat
import Mathlib.Data.List.Dedup
import Mathlib.Data.List.Induction

/-!
What a session loads. A ledger notes which languages the operations of a run ask for, in stretches that
end where the store is cleared, and it knows of no parsers and loads. After every run the store keeps
something of exactly the languages that the ledger has in its current stretch, it has made one load for
each language in each stretch, and it stands by what came of the load until it is cleared.
-/

namespace DeclSplit

open ParserStore

namespace Operation

/-- The language whose parser an operation asks for, under a policy for unknown names. -/
def asks? (fallback : Fallback) : Operation → Option Language
  | .parser language => some language
  | .parserNamed name => Language.ofName? name
  | .poison language => some language
  | .chunk _ language => some language
  | .chunkFile _ language _ => some language
  | .chunkNamed _ name => (fallback.resolve name).toOption
  | .extract _ language => some language
  | .failure _ | .clear | .setFilter _ | .setFallback _ | .describe => none

/-- The policy for unknown names after an operation. -/
def policy (fallback : Fallback) : Operation → Fallback
  | .setFallback fallback => fallback
  | _ => fallback

end Operation

/-- What the operations of a run ask for. -/
structure Ledger where
  /-- The policy for unknown names. -/
  fallback : Fallback
  /-- The languages asked for since the store was last cleared, latest first. -/
  current : List Language
  /-- The languages asked for in each stretch of operations before that, latest first. -/
  earlier : List (List Language)

namespace Ledger

/-- Notes an operation. -/
def note (ledger : Ledger) (operation : Operation) : Ledger :=
  match operation with
  | .clear => { ledger with current := [], earlier := ledger.current :: ledger.earlier }
  | operation =>
    { ledger with
      fallback := operation.policy ledger.fallback
      current := (operation.asks? ledger.fallback).toList ++ ledger.current }

/-- Notes the operations of a run that starts under a policy for unknown names. -/
def ofRun (fallback : Fallback) (operations : List Operation) : Ledger :=
  operations.foldl note ⟨fallback, [], []⟩

/-- The number of languages in each stretch, added up. -/
def loads (ledger : Ledger) : Nat :=
  ((ledger.current :: ledger.earlier).map fun asked => asked.dedup.length).sum

theorem note_clear (ledger : Ledger) :
    ledger.note .clear = { ledger with current := [], earlier := ledger.current :: ledger.earlier } := rfl

theorem note_of_ne {operation : Operation} (other : operation ≠ .clear) (ledger : Ledger) :
    ledger.note operation = ⟨operation.policy ledger.fallback,
      (operation.asks? ledger.fallback).toList ++ ledger.current, ledger.earlier⟩ := by
  unfold note
  split
  · exact absurd rfl other
  · rfl

theorem ofRun_concat (fallback : Fallback) (operations : List Operation) (operation : Operation) :
    ofRun fallback (operations ++ [operation]) = (ofRun fallback operations).note operation := by
  simp [ofRun]

end Ledger

theorem Fallback.resolve_strict {name : String} (unknown : Language.ofName? name = none) :
    strict.resolve name = .error (.unsupportedLanguage name) := by
  unfold resolve
  rw [unknown]

namespace Session

/-! ### One operation -/

theorem step_parserNamed_of_some {s : Session} {name : String} {l : Language}
    (known : Language.ofName? name = some l) : s.step (.parserNamed name) = s.step (.parser l) := by
  simp only [step]
  unfold parserNamed
  rw [known]

theorem step_parserNamed_of_none {s : Session} {name : String} (unknown : Language.ofName? name = none) :
    s.step (.parserNamed name) = (.parser (.ok none), s) := by
  simp only [step]
  unfold parserNamed
  rw [unknown]

theorem step_chunkNamed_of_ok {s : Session} {source name : String} {l : Language}
    (known : s.service.fallback.resolve name = .ok l) :
    s.step (.chunkNamed source name) = s.step (.chunk source l) := by
  simp only [step]
  unfold Service.chunkNamed
  rw [known]

theorem step_chunkNamed_of_error {s : Session} {source name : String} {error : ChunkError}
    (unknown : s.service.fallback.resolve name = .error error) :
    s.step (.chunkNamed source name) = (.chunks (.error error), s) := by
  simp only [step]
  unfold Service.chunkNamed
  rw [unknown]

/-- What becomes of the store: it is cleared, left as it is, asked for a language, or a parser in it is
marked. -/
theorem store_step_eq (s : Session) (operation : Operation) :
    operation = .clear ∧ (s.step operation).2.store = s.store.clear ∨
    operation ≠ .clear ∧ operation.asks? s.service.fallback = none ∧
      (s.step operation).2.store = s.store ∨
    (operation ≠ .clear ∧ ∀ l, operation ≠ .poison l) ∧ (∃ l, operation.asks? s.service.fallback = some l ∧
      (s.step operation).2.store = (s.store.request s.service.loader l).2) ∨
    ∃ l, operation = .poison l ∧ (s.step operation).2.store = s.store.poison s.service.loader l := by
  cases operation with
  | clear => exact Or.inl ⟨rfl, rfl⟩
  | failure | setFilter | setFallback | describe => exact Or.inr (Or.inl ⟨nofun, rfl, rfl⟩)
  | poison l => exact Or.inr (Or.inr (Or.inr ⟨l, rfl, rfl⟩))
  | parser l => exact Or.inr (Or.inr (Or.inl ⟨⟨nofun, nofun⟩, l, rfl, rfl⟩))
  | chunk source l => exact Or.inr (Or.inr (Or.inl ⟨⟨nofun, nofun⟩, l, rfl, rfl⟩))
  | chunkFile source l filePath => exact Or.inr (Or.inr (Or.inl ⟨⟨nofun, nofun⟩, l, rfl, rfl⟩))
  | extract source l => exact Or.inr (Or.inr (Or.inl ⟨⟨nofun, nofun⟩, l, rfl, rfl⟩))
  | parserNamed name =>
    cases found : Language.ofName? name with
    | none =>
      rw [step_parserNamed_of_none found]
      exact Or.inr (Or.inl ⟨nofun, found, rfl⟩)
    | some l =>
      rw [step_parserNamed_of_some found]
      exact Or.inr (Or.inr (Or.inl ⟨⟨nofun, nofun⟩, l, found, rfl⟩))
  | chunkNamed source name =>
    cases found : s.service.fallback.resolve name with
    | error error =>
      rw [step_chunkNamed_of_error found]
      exact Or.inr (Or.inl ⟨nofun, by rw [Operation.asks?, found]; rfl, rfl⟩)
    | ok l =>
      rw [step_chunkNamed_of_ok found]
      exact Or.inr (Or.inr (Or.inl ⟨⟨nofun, nofun⟩, l, by rw [Operation.asks?, found]; rfl, rfl⟩))

/-- An operation clears the store, or leaves it as it is, or asks for one language. -/
theorem store_step_cases (s : Session) (operation : Operation) :
    operation = .clear ∧ (s.step operation).2.store = s.store.clear ∨
    operation ≠ .clear ∧ operation.asks? s.service.fallback = none ∧
      (s.step operation).2.store = s.store ∨
    operation ≠ .clear ∧ ∃ l, operation.asks? s.service.fallback = some l ∧
      Asked s.service.loader l s.store (s.step operation).2.store := by
  rcases s.store_step_eq operation with cleared | quiet | ⟨⟨other, -⟩, l, asks, store⟩ | ⟨l, rfl, store⟩
  · exact Or.inl cleared
  · exact Or.inr (Or.inl quiet)
  · exact Or.inr (Or.inr ⟨other, l, asks, store ▸ asked_request ..⟩)
  · exact Or.inr (Or.inr ⟨nofun, l, rfl, store ▸ asked_poison ..⟩)

theorem service_step (s : Session) (operation : Operation) :
    (s.step operation).2.service.loader = s.service.loader ∧
      (s.step operation).2.service.parse = s.service.parse ∧
      (s.step operation).2.service.fallback = operation.policy s.service.fallback := by
  cases operation <;> simp only [step, Operation.policy, and_self]

theorem follows_step (s : Session) (operation : Operation) : Follows s.store (s.step operation).2.store := by
  rcases s.store_step_cases operation with ⟨-, cleared⟩ | ⟨-, -, same⟩ | ⟨-, l, -, asked⟩
  · rw [cleared]
    exact .clear _
  · rw [same]
    exact .refl _
  · exact asked.follows

theorem numbered_step {s : Session} (numbered : s.store.Numbered) (operation : Operation) :
    (s.step operation).2.store.Numbered := by
  rcases s.store_step_cases operation with ⟨-, cleared⟩ | ⟨-, -, same⟩ | ⟨-, l, -, asked⟩
  · rw [cleared]
    exact numbered_clear _
  · rw [same]
    exact numbered
  · exact asked.numbered numbered

/-- Only clearing the store makes it forget what came of a load. -/
theorem outcome_step {s : Session} {operation : Operation} {l : Language} {slot : Slot}
    (other : operation ≠ .clear) (kept : s.store.outcome l = some slot) :
    (s.step operation).2.store.outcome l = some slot := by
  rcases s.store_step_cases operation with ⟨clear, -⟩ | ⟨-, -, same⟩ | ⟨-, m, -, asked⟩
  · exact absurd clear other
  · rw [same]
    exact kept
  · exact asked.outcome_eq kept

/-- The first one to ask for a language makes the store keep what comes of the next load. -/
theorem outcome_of_asks {s : Session} {operation : Operation} {l : Language}
    (asks : operation.asks? s.service.fallback = some l) (missing : s.store.outcome l = none) :
    (s.step operation).2.store.outcome l = some (loadSlot s.service.loader l s.store.loads) := by
  rcases s.store_step_cases operation with ⟨rfl, -⟩ | ⟨-, quiet, -⟩ | ⟨-, m, asks', asked⟩
  · cases asks
  · rw [quiet] at asks
    cases asks
  · obtain rfl : m = l := Option.some.inj (asks'.symm.trans asks)
    cases asked with
    | found kept _ _ => simp [missing] at kept
    | loaded _ outcome _ => simp [outcome]

/-- A parser that an operation answers with has the number of the one that the store keeps. -/
theorem outcome_of_answer {s : Session} {operation : Operation} {parser : Parser}
    (answered : (s.step operation).1 = .parser (.ok (some parser))) :
    operation ≠ .clear ∧ ∃ l, (∀ fallback, operation.asks? fallback = some l) ∧
      ∃ kept : Parser, kept.serial = parser.serial ∧
        (s.step operation).2.store.outcome l = some (.ready kept) := by
  cases operation with
  | parser l =>
    exact ⟨nofun, l, fun _ => rfl, outcome_of_given (Answer.parser.inj answered)⟩
  | parserNamed name =>
    cases found : Language.ofName? name with
    | none =>
      rw [step_parserNamed_of_none found] at answered
      cases answered
    | some l =>
      rw [step_parserNamed_of_some found] at answered ⊢
      exact ⟨nofun, l, fun _ => found, outcome_of_given (Answer.parser.inj answered)⟩
  | clear | failure | poison | setFilter | setFallback | describe => cases answered
  | chunk | chunkFile | chunkNamed | extract => simp [step] at answered

/-! ### Whole runs -/

theorem run_append (s : Session) (first second : List Operation) :
    s.run (first ++ second) = (s.run first).run second := by
  simp [run]

theorem run_cons (s : Session) (operation : Operation) (rest : List Operation) :
    s.run (operation :: rest) = (s.step operation).2.run rest := rfl

/-- What every operation keeps holds after a run. -/
theorem run_keeps {P : Session → Prop} (keeps : ∀ {s}, P s → ∀ operation, P (s.step operation).2)
    {s : Session} (holds : P s) (operations : List Operation) : P (s.run operations) := by
  induction operations generalizing s with
  | nil => exact holds
  | cons operation rest ih => exact ih (keeps holds operation)

theorem follows_run (s : Session) (operations : List Operation) :
    Follows s.store (s.run operations).store := by
  refine run_keeps (P := fun t => Follows s.store t.store) (fun follows operation => ?_) (.refl _) operations
  exact follows.trans (follows_step _ operation)

theorem numbered_run (service : Service) (operations : List Operation) :
    (run ⟨service, .empty⟩ operations).store.Numbered :=
  run_keeps (P := fun t => t.store.Numbered) numbered_step numbered_empty operations

theorem loader_run (s : Session) (operations : List Operation) :
    (s.run operations).service.loader = s.service.loader :=
  run_keeps (P := fun t => t.service.loader = s.service.loader)
    (fun same operation => (service_step _ operation).1.trans same) rfl operations

theorem outcome_run {s : Session} {operations : List Operation} {l : Language} {slot : Slot}
    (others : ∀ operation ∈ operations, operation ≠ .clear) (kept : s.store.outcome l = some slot) :
    (s.run operations).store.outcome l = some slot := by
  induction operations generalizing s with
  | nil => exact kept
  | cons operation rest ih =>
    obtain ⟨first, rest⟩ := List.forall_mem_cons.mp others
    exact ih rest (outcome_step first kept)

end Session

namespace Ledger

/-- The store of a session keeps something of the languages of the current stretch, and it has made a
load for each language of each stretch. -/
structure Fits (ledger : Ledger) (s : Session) : Prop where
  fallback : s.service.fallback = ledger.fallback
  languages : ∀ l, (s.store.outcome l).isSome ↔ l ∈ ledger.current
  loads : s.store.loads = ledger.loads

theorem Fits.step {ledger : Ledger} {s : Session} (fits : ledger.Fits s) (operation : Operation) :
    (ledger.note operation).Fits (s.step operation).2 := by
  obtain ⟨fallback, languages, loads⟩ := fits
  have policy := (s.service_step operation).2.2
  rw [fallback] at policy
  rcases s.store_step_cases operation with ⟨rfl, cleared⟩ | ⟨other, quiet, same⟩ | ⟨other, l, asks, asked⟩
  · refine ⟨policy, fun l => by simp [cleared, note_clear], ?_⟩
    rw [cleared, note_clear]
    simpa [Ledger.loads] using loads
  · rw [fallback] at quiet
    rw [note_of_ne other, quiet]
    exact ⟨policy, fun l => by rw [same]; exact languages l, by rw [same]; exact loads⟩
  · rw [fallback] at asks
    rw [note_of_ne other, asks]
    refine ⟨policy, fun m => ?_, ?_⟩
    · rw [asked.isSome_outcome, languages]
      simp
    · simp only [Ledger.loads, Option.toList_some, List.cons_append, List.nil_append, List.map_cons,
        List.sum_cons] at loads ⊢
      -- A language is loaded exactly when the current stretch does not have it yet.
      cases asked with
      | found kept _ same => rw [List.dedup_cons_of_mem ((languages l).mp kept), same, loads]
      | loaded missing _ more =>
        have new : l ∉ ledger.current := fun member => by simpa [missing] using (languages l).mpr member
        rw [List.dedup_cons_of_notMem new, more, loads, List.length_cons]
        omega

theorem fits_run (service : Service) (operations : List Operation) :
    (ofRun service.fallback operations).Fits (Session.run ⟨service, .empty⟩ operations) := by
  induction operations using List.reverseRecOn with
  | nil => exact ⟨rfl, fun l => by simp [Session.run, ofRun], rfl⟩
  | append_singleton operations operation ih =>
    rw [ofRun_concat, Session.run_append]
    exact ih.step operation

/-- A language of the current stretch was asked for by a first operation after the store was cleared. -/
theorem exists_first_request (fallback : Fallback) {operations : List Operation} {l : Language}
    (asked : l ∈ (ofRun fallback operations).current) :
    ∃ before operation after, operations = before ++ operation :: after ∧
      operation.asks? (ofRun fallback before).fallback = some l ∧
      l ∉ (ofRun fallback before).current ∧ ∀ later ∈ after, later ≠ .clear := by
  induction operations using List.reverseRecOn with
  | nil => simp [ofRun] at asked
  | append_singleton operations operation ih =>
    rw [ofRun_concat] at asked
    by_cases clear : operation = .clear
    · simp [clear, note_clear] at asked
    by_cases before : l ∈ (ofRun fallback operations).current
    · obtain ⟨start, first, after, rfl, asks, new, others⟩ := ih before
      refine ⟨start, first, after ++ [operation], by simp, asks, new, ?_⟩
      intro later member
      rcases List.mem_append.mp member with member | member
      · exact others later member
      · rw [List.mem_singleton.mp member]
        exact clear
    · rw [note_of_ne clear] at asked
      refine ⟨operations, operation, [], rfl, ?_, before, by simp⟩
      rcases List.mem_append.mp asked with asks | member
      · exact Option.mem_toList.mp asks
      · exact absurd member before

end Ledger

namespace Session

/-! ### What is kept and what was loaded -/

theorem cached_increasing (store : ParserStore) :
    store.cached.Pairwise fun a b => Language.all.idxOf a < Language.all.idxOf b := by
  have all : Language.all.Pairwise fun a b => Language.all.idxOf a < Language.all.idxOf b := by decide
  exact all.filter _

/-- Why there is no parser of a language is told by the load that its first request made. -/
theorem failure_of_first_request {service : Service} {before after : List Operation} {operation : Operation}
    {l : Language} (asks : operation.asks? (Ledger.ofRun service.fallback before).fallback = some l)
    (new : l ∉ (Ledger.ofRun service.fallback before).current) (others : ∀ later ∈ after, later ≠ .clear) :
    (run ⟨service, .empty⟩ (before ++ operation :: after)).store.failure l =
      (service.loader (run ⟨service, .empty⟩ before).store.loads l).error? l := by
  have fits := Ledger.fits_run service before
  have missing : (run ⟨service, .empty⟩ before).store.outcome l = none := by
    simpa [← fits.languages] using new
  rw [← fits.fallback] at asks
  have kept := outcome_run others (outcome_of_asks asks missing)
  rw [loader_run] at kept
  rw [run_append, run_cons, failure_eq_error?, kept, Option.bind_some, error?_loadSlot]

/-- The operation that comes after `before` in a run answers with a parser. -/
def Returns (s : Session) (before : List Operation) (operation : Operation) (parser : Parser) : Prop :=
  ((s.run before).step operation).1 = .parser (.ok (some parser))

/-- Two operations answer with the same parser exactly when they ask for the same language and the store
is not cleared between them. -/
theorem same_parser_iff {service : Service} {before between : List Operation} {first second : Operation}
    {p q : Parser} (hp : Returns ⟨service, .empty⟩ before first p)
    (hq : Returns ⟨service, .empty⟩ (before ++ first :: between) second q) :
    p.serial = q.serial ↔ (∀ operation ∈ between, operation ≠ .clear) ∧
      first.asks? service.fallback = second.asks? service.fallback := by
  obtain ⟨-, l, asksl, p', serialp, keptp⟩ := outcome_of_answer hp
  obtain ⟨other, m, asksm, q', serialq, keptq⟩ := outcome_of_answer hq
  have numbered := numbered_step (numbered_run service before) first
  rw [run_append, run_cons] at keptq
  generalize ((run ⟨service, .empty⟩ before).step first).2 = s at keptp keptq numbered
  rw [asksl, asksm, ← serialp, ← serialq]
  constructor
  · intro same
    have number := numbered.below keptp
    refine ⟨?_, ?_⟩
    · -- After the store was cleared, all numbers are those of later loads.
      rintro operation member rfl
      obtain ⟨start, rest, rfl⟩ := List.append_of_mem member
      rw [run_append, run_cons] at keptq
      have upTo := (follows_run s start).trans (follows_step _ .clear)
      have since := (follows_run ((s.run start).step .clear).2 rest).trans (follows_step _ second)
      rcases since.parsers keptq with old | new
      · cases old
      · have := upTo.loads
        omega
    · have since := (follows_run s between).trans (follows_step _ second)
      rcases since.parsers keptq with old | new
      · rw [numbered.distinct keptp old same]
      · omega
  · rintro ⟨others, same⟩
    obtain rfl : l = m := Option.some.inj same
    have kept := outcome_step other (outcome_run others keptp)
    obtain rfl : p' = q' := by simpa using kept.symm.trans keptq
    rfl

/-- After every run that starts with an empty store: something is kept of exactly the languages that
were asked for since the store was last cleared, in registry order; each language was loaded once in
each stretch in which it was asked for; a language has a failure exactly if it was asked for in the
current stretch and its load gave one, the same ever since; parsers are the same exactly for the same
language in the same stretch; and unknown names change nothing. -/
theorem run_accounts_for_requests (service : Service) (operations : List Operation) :
    let start : Session := ⟨service, .empty⟩
    let s := start.run operations
    let ledger := Ledger.ofRun service.fallback operations
    (∀ l, l ∈ s.store.cached ↔ l ∈ ledger.current) ∧
    (s.store.cached.Pairwise fun a b => Language.all.idxOf a < Language.all.idxOf b) ∧
    s.store.loads = ledger.loads ∧
    (∀ l ∉ ledger.current, s.store.failure l = none) ∧
    (∀ l ∈ ledger.current, ∃ before operation after, operations = before ++ operation :: after ∧
      operation.asks? (Ledger.ofRun service.fallback before).fallback = some l ∧
      l ∉ (Ledger.ofRun service.fallback before).current ∧ (∀ later ∈ after, later ≠ .clear) ∧
      s.store.failure l = (service.loader (start.run before).store.loads l).error? l) ∧
    (∀ before first between second after p q,
      operations = before ++ first :: between ++ second :: after →
      start.Returns before first p → start.Returns (before ++ first :: between) second q →
      (p.serial = q.serial ↔ (∀ operation ∈ between, operation ≠ .clear) ∧
        first.asks? service.fallback = second.asks? service.fallback)) ∧
    ∀ name, Language.ofName? name = none →
      s.step (.parserNamed name) = (.parser (.ok none), s) ∧
      (s.service.fallback = .strict → ∀ source,
        s.step (.chunkNamed source name) = (.chunks (.error (.unsupportedLanguage name)), s)) := by
  intro start s ledger
  have fits : ledger.Fits s := Ledger.fits_run service operations
  refine ⟨fun l => mem_cached.trans (fits.languages l), cached_increasing s.store, fits.loads, ?_, ?_, ?_, ?_⟩
  · intro l absent
    have missing : s.store.outcome l = none := by simpa [← fits.languages] using absent
    rw [failure_eq_error?, missing, Option.bind_none]
  · intro l asked
    obtain ⟨before, operation, after, split, asks, new, others⟩ := Ledger.exists_first_request _ asked
    refine ⟨before, operation, after, split, asks, new, others, ?_⟩
    have failure := failure_of_first_request asks new others
    rwa [← split] at failure
  · intro before first between second after p q _ hp hq
    exact same_parser_iff hp hq
  · intro name unknown
    refine ⟨step_parserNamed_of_none unknown, fun strict source => step_chunkNamed_of_error ?_⟩
    rw [strict]
    exact Fallback.resolve_strict unknown

end Session

/-- A service whose first load fails and whose later loads give each language its own grammar. -/
def Service.late : Service where
  loader n l := if n = 0 then .missing (.grammarUnavailable l.id "not installed") else .ready l
  parse _ _ := none

namespace Session

/-- After the store was cleared, the grammar is found, and both names of the language get its parser. -/
theorem late_found_once :
    ∃ p q, Returns ⟨Service.late, .empty⟩ [.parser .rust, .clear] (.parser .rust) p ∧
      Returns ⟨Service.late, .empty⟩ ([.parser .rust, .clear] ++ .parser .rust :: []) (.parserNamed "RS") q ∧
      p.serial = q.serial := by
  have name : Language.ofName? "RS" = some .rust := by decide +kernel
  have first : Returns ⟨Service.late, .empty⟩ [.parser .rust, .clear] (.parser .rust) ⟨.rust, 1, false⟩ := rfl
  have second : Returns ⟨Service.late, .empty⟩ ([.parser .rust, .clear] ++ .parser .rust :: []) (.parserNamed "RS")
      ⟨.rust, 1, false⟩ := by
    rw [Returns, step_parserNamed_of_some name]
    rfl
  refine ⟨_, _, first, second, ?_⟩
  obtain ⟨-, -, -, -, -, parsers, -⟩ := run_accounts_for_requests Service.late
    ([.parser .rust, .clear] ++ .parser .rust :: [] ++ .parserNamed "RS" :: [])
  exact (parsers _ _ _ _ _ _ _ rfl first second).mpr ⟨by simp, name.symm⟩

end Session

end DeclSplit

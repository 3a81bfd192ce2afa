import DeclSplit.Proofs.Chunk
import DeclSplit.Proofs.Session.Ledger

/-!
What a session answers after a history. Where loads always come out the same, what was asked for before
does not show in the chunks of a source: a session answers as a new one with the same filter does,
except that it refuses to use a parser that someone failed to give back since the store was cleared.
-/

namespace DeclSplit

open ParserStore

theorem Fallback.resolve_eq_error {policy : Fallback} {name : String} {error : ChunkError}
    (refused : policy.resolve name = .error error) : error = .unsupportedLanguage name := by
  unfold resolve at refused
  split at refused <;> cases refused
  rfl

namespace Session

/-- The parser of a language was poisoned in a run, and the store was not cleared since. -/
def PoisonedSince (operations : List Operation) (l : Language) : Prop :=
  ∃ before after, operations = before ++ .poison l :: after ∧ ∀ later ∈ after, later ≠ .clear

theorem poisonedSince_concat {operations : List Operation} {operation : Operation} {l : Language} :
    PoisonedSince (operations ++ [operation]) l ↔
      operation ≠ .clear ∧ (PoisonedSince operations l ∨ operation = .poison l) := by
  constructor
  · rintro ⟨before, after, split, others⟩
    rcases List.eq_nil_or_concat' after with rfl | ⟨after, last, rfl⟩
    · obtain ⟨rfl, rfl⟩ := List.append_singleton_inj.mp split
      exact ⟨nofun, Or.inr rfl⟩
    · rw [← List.cons_append, ← List.append_assoc] at split
      obtain ⟨rfl, rfl⟩ := List.append_singleton_inj.mp split
      refine ⟨others operation (by simp), Or.inl ⟨before, after, rfl, fun later member => ?_⟩⟩
      exact others later (List.mem_append_left _ member)
  · rintro ⟨other, ⟨before, after, rfl, others⟩ | rfl⟩
    · refine ⟨before, after ++ [operation], by simp, fun later member => ?_⟩
      rcases List.mem_append.mp member with member | member
      · exact others later member
      · rw [List.mem_singleton.mp member]
        exact other
    · exact ⟨operations, [], rfl, by simp⟩

/-! ### What an operation keeps -/

theorem intact_step {s : Session} (intact : s.store.Intact s.service.loader) (operation : Operation) :
    (s.step operation).2.store.Intact (s.step operation).2.service.loader := by
  rw [(s.service_step operation).1]
  rcases s.store_step_cases operation with ⟨-, cleared⟩ | ⟨-, -, same⟩ | ⟨-, l, -, asked⟩
  · rw [cleared]
    exact intact_clear _ _
  · rw [same]
    exact intact
  · exact asked.intact intact

theorem poisoned_step (s : Session) (operation : Operation) (l : Language) :
    (s.step operation).2.store.poisoned l = true ↔ operation ≠ .clear ∧ (s.store.poisoned l = true ∨
      operation = .poison l ∧ ∃ parser, (s.store.request s.service.loader l).1 = .ready parser) := by
  rcases s.store_step_eq operation with ⟨rfl, store⟩ | ⟨other, quiet, store⟩ | ⟨⟨other, unmarked⟩, m, -, store⟩ |
      ⟨m, rfl, store⟩
  · simp [store]
  · have unmarked : operation ≠ .poison l := by
      rintro rfl
      cases quiet
    simp [store, other, unmarked]
  · simp [store, poisoned_request, other, unmarked]
  · rw [store, poisoned_poison]
    have same : Operation.poison m = .poison l ↔ l = m := by
      rw [Operation.poison.injEq]
      exact eq_comm
    rw [same]
    constructor
    · rintro (before | ⟨rfl, ready⟩)
      · exact ⟨nofun, Or.inl before⟩
      · exact ⟨nofun, Or.inr ⟨rfl, ready⟩⟩
    · rintro ⟨-, before | ⟨rfl, ready⟩⟩
      · exact Or.inl before
      · exact Or.inr ⟨rfl, ready⟩

/-! ### Whole runs -/

theorem intact_run (service : Service) (operations : List Operation) :
    (run ⟨service, .empty⟩ operations).store.Intact service.loader := by
  have intact := run_keeps (P := fun t => t.store.Intact t.service.loader) intact_step
    (s := ⟨service, .empty⟩) (intact_empty service.loader) operations
  rwa [loader_run] at intact

theorem parse_run (s : Session) (operations : List Operation) :
    (s.run operations).service.parse = s.service.parse :=
  run_keeps (P := fun t => t.service.parse = s.service.parse)
    (fun same operation => (service_step _ operation).2.1.trans same) rfl operations

/-- A parser that can be loaded is marked after a run exactly if it was poisoned since the store was
cleared. -/
theorem poisoned_run (service : Service) (steady : service.loader.Steady) {l : Language} {grammar : Language}
    (found : service.loader 0 l = .ready grammar) (operations : List Operation) :
    (run ⟨service, .empty⟩ operations).store.poisoned l = true ↔ PoisonedSince operations l := by
  induction operations using List.reverseRecOn with
  | nil =>
    refine ⟨nofun, ?_⟩
    rintro ⟨before, after, split, -⟩
    simp at split
  | append_singleton operations operation ih =>
    have ready : ∃ parser, ((run ⟨service, .empty⟩ operations).store.request service.loader l).1 = .ready parser := by
      obtain ⟨⟨n, loaded⟩, -⟩ := request_fst (intact_run service operations) l
      rw [loadSlot, steady n 0, found] at loaded
      cases slot : ((run ⟨service, .empty⟩ operations).store.request service.loader l).1 with
      | ready parser => exact ⟨parser, rfl⟩
      | unavailable | broken =>
        rw [slot] at loaded
        cases loaded
    rw [run_append, poisonedSince_concat, ← ih]
    refine (poisoned_step _ operation l).trans ?_
    rw [loader_run]
    simp [ready]

/-- The declarations of a source after a run are those that a new service with the same filter finds. -/
theorem extract_settles_run (service : Service) (steady : service.loader.Steady) (operations : List Operation)
    (source : String) (l : Language) :
    let s := run ⟨service, .empty⟩ operations
    service.Settles l (PoisonedSince operations l) (s.service.extract source l s.store).1
      (Service.extract { service with filter := s.service.filter } source l .empty).1 := by
  intro s
  have intact : s.store.Intact service.loader := intact_run service operations
  have loader : s.service.loader = service.loader := loader_run _ operations
  have parse : s.service.parse = service.parse := parse_run _ operations
  have marks {grammar : Language} (found : service.loader 0 l = .ready grammar) :
      s.store.poisoned l = true ↔ PoisonedSince operations l := poisoned_run service steady found operations
  obtain ⟨⟨loader', parse', filter, fallback⟩, store⟩ := s
  obtain rfl : loader' = service.loader := loader
  obtain rfl : parse' = service.parse := parse
  obtain ⟨incompatible, missing, poisoned, ready⟩ :=
    Service.extract_settles (s := ⟨service.loader, service.parse, filter, fallback⟩) steady intact source l
  exact ⟨incompatible, missing, fun found mark => poisoned found ((marks found).mpr mark),
    fun found unmarked => ready found fun mark => unmarked ((marks found).mp mark)⟩

/-- What was done before does not show in an answer. After every run, a source is refused if its language
has no parser or the parser was poisoned since the store was cleared, and else it gets the answer of a
new service with the same filter. A name is taken for the language that the policy of the session finds
for it, and a name without one is refused. -/
theorem answers_forget_history (service : Service) (steady : service.loader.Steady)
    (operations : List Operation) (source : String) :
    let s := run ⟨service, .empty⟩ operations
    let fresh : Service := { service with filter := s.service.filter }
    (∀ l,
      service.Settles l (PoisonedSince operations l) (s.service.extract source l s.store).1
        (fresh.extract source l .empty).1 ∧
      service.Settles l (PoisonedSince operations l) (s.service.chunk source l s.store).1
        (fresh.chunk source l .empty).1 ∧
      ∀ filePath,
        service.Settles l (PoisonedSince operations l)
          (s.service.chunkFile source l (some filePath) s.store).1
          (fresh.chunkFile source l (some filePath) .empty).1) ∧
    ∀ name,
      (∀ l, s.service.fallback.resolve name = .ok l →
        (s.service.chunkNamed source name s.store).1 = (s.service.chunk source l s.store).1) ∧
      ∀ error, s.service.fallback.resolve name = .error error →
        (s.service.chunkNamed source name s.store).1 = .error (.unsupportedLanguage name) := by
  intro s fresh
  refine ⟨fun l => ?_, fun name => ⟨fun l known => ?_, fun error refused => ?_⟩⟩
  · have settles := extract_settles_run service steady operations source l
    exact ⟨settles, settles.map _, fun filePath => settles.map _⟩
  · unfold Service.chunkNamed
    rw [known]
  · unfold Service.chunkNamed
    rw [refused, Fallback.resolve_eq_error refused]

/-- A parser that was poisoned is good again once the store is cleared; one that was poisoned later is
not. -/
theorem decorating_after_history :
    let operations : List Operation := [.poison .javaScript, .clear, .poison .python]
    let s := run ⟨Service.decorating, .empty⟩ operations
    Service.decorating.loader.Steady ∧
      (s.service.chunk decoratedSource .javaScript s.store).1 =
        (Service.decorating.chunk decoratedSource .javaScript .empty).1 ∧
      (s.service.chunk decoratedSource .python s.store).1 =
        .error (.cache "parser lock poisoned for python") := by
  intro operations s
  have steady : Service.decorating.loader.Steady := fun _ _ => rfl
  have cleared : ¬PoisonedSince operations .javaScript := by
    change ¬PoisonedSince (([.poison .javaScript] ++ [.clear]) ++ [.poison .python]) .javaScript
    rw [poisonedSince_concat, poisonedSince_concat]
    simp
  have marked : PoisonedSince operations .python := ⟨[.poison .javaScript, .clear], [], rfl, by simp⟩
  obtain ⟨settles, -⟩ := answers_forget_history Service.decorating steady operations decoratedSource
  exact ⟨steady, (settles .javaScript).2.1.ready rfl cleared, (settles .python).2.1.poisoned rfl marked⟩

end Session

end DeclSplit

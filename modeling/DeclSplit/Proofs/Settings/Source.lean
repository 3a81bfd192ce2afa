import DeclSplit.Proofs.Settings.Variables
import DeclSplit.Settings.Source
import Mathlib.Data.List.Basic

/-!
Settings put together from files and variables. Sources are applied by their priority, those of equal
priority as they were registered, so all files come before all variables. A file makes nothing of the
settings before it: of several files the last one counts that can be read, unless one fails that is
required. Variables change the settings once, however often they are applied.
-/

namespace DeclSplit

namespace Settings

/-! ### The order of sources -/

theorem before_trans (a b c : Registered) (first : decide (a.source.priority ≤ b.source.priority) = true)
    (second : decide (b.source.priority ≤ c.source.priority) = true) :
    decide (a.source.priority ≤ c.source.priority) = true := by
  simp only [decide_eq_true_eq] at first second ⊢
  exact Nat.le_trans first second

theorem before_total (a b : Registered) :
    (decide (a.source.priority ≤ b.source.priority) || decide (b.source.priority ≤ a.source.priority)) = true := by
  simp only [Bool.or_eq_true, decide_eq_true_eq]
  exact Nat.le_total _ _

theorem pairwise_ordered (sources : List Registered) :
    (ordered sources).Pairwise fun a b => a.source.priority ≤ b.source.priority :=
  (List.pairwise_mergeSort before_trans before_total sources).imp of_decide_eq_true

/-- Sources of one priority stay in the order in which they were registered. -/
theorem filter_ordered (sources : List Registered) (p : Nat) :
    (ordered sources).filter (·.source.priority = p) = sources.filter (·.source.priority = p) := by
  have alike : (sources.filter (·.source.priority = p)).Pairwise
      fun a b => decide (a.source.priority ≤ b.source.priority) = true := by
    apply List.pairwise_of_forall_mem_list
    intro a inA b inB
    have ofA := of_decide_eq_true (List.mem_filter.mp inA).2
    have ofB := of_decide_eq_true (List.mem_filter.mp inB).2
    rw [ofA, ofB]
    exact decide_eq_true (Nat.le_refl p)
  have stays : (sources.filter (·.source.priority = p)).Sublist (ordered sources) :=
    List.sublist_mergeSort before_trans before_total alike List.filter_sublist
  have kept : (sources.filter (·.source.priority = p)).Sublist
      ((ordered sources).filter (·.source.priority = p)) := by
    simpa only [List.filter_filter, Bool.and_self] using stays.filter (·.source.priority = p)
  have perm : (ordered sources).Perm sources := List.mergeSort_perm sources _
  exact (kept.eq_of_length (perm.filter _).length_eq.symm).symm

theorem mem_of_filter_eq {l m : List Registered}
    (agree : ∀ p, l.filter (·.source.priority = p) = m.filter (·.source.priority = p)) {r : Registered}
    (member : r ∈ l) : r ∈ m := by
  have inFilter : r ∈ l.filter (·.source.priority = r.source.priority) :=
    List.mem_filter.mpr ⟨member, decide_eq_true rfl⟩
  rw [agree] at inFilter
  exact (List.mem_filter.mp inFilter).1

/-- Two lists of sources in the order of priority are equal if they agree on the sources of each priority. -/
theorem eq_of_filter_eq {l m : List Registered}
    (sortedL : l.Pairwise fun a b => a.source.priority ≤ b.source.priority)
    (sortedM : m.Pairwise fun a b => a.source.priority ≤ b.source.priority)
    (agree : ∀ p, l.filter (·.source.priority = p) = m.filter (·.source.priority = p)) : l = m := by
  induction l generalizing m with
  | nil =>
    cases m with
    | nil => rfl
    | cons b m => cases mem_of_filter_eq (fun p => (agree p).symm) List.mem_cons_self
  | cons a l ih =>
    cases m with
    | nil => cases mem_of_filter_eq agree List.mem_cons_self
    | cons b m =>
      -- Each of the two first sources is in the other list, so neither has the lower priority.
      have least : a.source.priority = b.source.priority := by
        apply Nat.le_antisymm
        · rcases List.mem_cons.mp (mem_of_filter_eq (fun p => (agree p).symm) List.mem_cons_self) with same | later
          · exact Nat.le_of_eq (by rw [same])
          · exact List.rel_of_pairwise_cons sortedL later
        · rcases List.mem_cons.mp (mem_of_filter_eq agree List.mem_cons_self) with same | later
          · exact Nat.le_of_eq (by rw [same])
          · exact List.rel_of_pairwise_cons sortedM later
      have firsts := agree b.source.priority
      simp only [List.filter_cons, least, decide_true, if_true] at firsts
      obtain rfl : a = b := (List.cons.inj firsts).1
      have rest : l = m := by
        apply ih sortedL.tail sortedM.tail
        intro p
        have both := agree p
        rw [List.filter_cons, List.filter_cons] at both
        split at both
        · exact (List.cons.inj both).2
        · exact both
      rw [rest]

theorem ordered_eq {sources sorted : List Registered}
    (inOrder : sorted.Pairwise fun a b => a.source.priority ≤ b.source.priority)
    (agree : ∀ p, sources.filter (·.source.priority = p) = sorted.filter (·.source.priority = p)) :
    ordered sources = sorted :=
  eq_of_filter_eq (pairwise_ordered sources) inOrder fun p => (filter_ordered sources p).trans (agree p)

end Settings

/-! ### Files and variables -/

/-- A source as it is registered: a file or the variables, and whether a failure of it is fatal. -/
inductive Registration where
  | file (content : Except FileError ByteArray) (required : Bool)
  | environment (required : Bool)

namespace Registration

/-- The source, where the variables have the given values. -/
def registered (vars : Variables) : Registration → Registered
  | file content required => ⟨.ofFile content, required⟩
  | environment required => ⟨.ofVariables vars, required⟩

/-- Whether it is a file. -/
def isFile : Registration → Bool
  | file .. => true
  | environment _ => false

/-- The settings of a file that can be read. -/
def loaded? : Registration → Option Settings
  | file content _ => (Source.readFile content).toOption
  | environment _ => none

/-- The error of a required file that cannot be read. -/
def fatal? : Registration → Option SettingsError
  | file content required =>
    match Source.readFile content with
    | .error error => if required then some error else none
    | .ok _ => none
  | environment _ => none

/-- The settings of the last file that can be read, or the defaults, with the variables on top if they are
registered at all. -/
def merged (vars : Variables) (rs : List Registration) : Settings :=
  let base := (rs.filterMap loaded?).getLast?.getD {}
  if rs.any (!·.isFile) then base.override vars else base

theorem priority_registered (vars : Variables) (r : Registration) :
    (r.registered vars).source.priority = if r.isFile then 50 else 100 := by
  cases r <;> rfl

end Registration

namespace Settings
open Registration

/-- The sources of one priority are the files, the variables, or none. -/
theorem filter_registered (vars : Variables) (rs : List Registration) (p : Nat) :
    (rs.map (·.registered vars)).filter (·.source.priority = p) =
      (if p = 50 then rs.filter (·.isFile) else if p = 100 then rs.filter (!·.isFile) else []).map
        (·.registered vars) := by
  rw [List.filter_map]
  congr 1
  split
  · apply List.filter_congr
    intro r _
    cases r <;> simp [priority_registered, isFile, *]
  · split
    · apply List.filter_congr
      intro r _
      cases r <;> simp [priority_registered, isFile, *]
    · apply List.filter_eq_nil_iff.mpr
      intro r _
      cases r <;> simp [priority_registered, isFile, eq_comm, *]

/-- All files are applied before all variables. -/
theorem ordered_registered (vars : Variables) (rs : List Registration) :
    ordered (rs.map (·.registered vars)) =
      (rs.filter (·.isFile)).map (·.registered vars) ++ (rs.filter (!·.isFile)).map (·.registered vars) := by
  apply ordered_eq
  · have ofFile : ∀ r ∈ rs.filter (·.isFile), (r.registered vars).source.priority = 50 := by
      intro r member
      rw [priority_registered, if_pos (List.mem_filter.mp member).2]
    have ofOther : ∀ r ∈ rs.filter (!·.isFile), (r.registered vars).source.priority = 100 := by
      intro r member
      rw [priority_registered, if_neg (by simpa using (List.mem_filter.mp member).2)]
    rw [← List.map_append, List.pairwise_map, List.pairwise_append]
    refine ⟨?_, ?_, ?_⟩
    · apply List.pairwise_of_forall_mem_list
      intro a inA b inB
      exact Nat.le_of_eq ((ofFile a inA).trans (ofFile b inB).symm)
    · apply List.pairwise_of_forall_mem_list
      intro a inA b inB
      exact Nat.le_of_eq ((ofOther a inA).trans (ofOther b inB).symm)
    · intro a inA b inB
      have := ofFile a inA
      have := ofOther b inB
      omega
  · intro p
    rw [List.filter_append, filter_registered, filter_registered, filter_registered]
    split
    · simp
    · split <;> simp

/-- A file puts its settings in the place of those before it, stops everything, or changes nothing. -/
theorem apply_file (vars : Variables) (base : Settings) {r : Registration} (file : r.isFile = true) :
    apply base (r.registered vars) =
      match r.fatal? with
      | some error => .error error
      | none => .ok (r.loaded?.getD base) := by
  cases r with
  | environment required => cases file
  | file content required =>
    simp only [apply, registered, Source.ofFile, fatal?, loaded?]
    cases Source.readFile content with
    | ok settings => cases required <;> rfl
    | error error => cases required <;> rfl

theorem apply_environment (vars : Variables) (base : Settings) {r : Registration} (other : r.isFile = false) :
    apply base (r.registered vars) = .ok (base.override vars) := by
  cases r with
  | file content required => cases other
  | environment required => rfl

/-- Of files one after the other the first fatal failure counts, and else the last file that can be read. -/
theorem foldlM_files (vars : Variables) (base : Settings) {rs : List Registration}
    (files : ∀ r ∈ rs, r.isFile = true) :
    (rs.map (·.registered vars)).foldlM apply base =
      match rs.findSome? fatal? with
      | some error => .error error
      | none => .ok ((rs.filterMap loaded?).getLast?.getD base) := by
  induction rs generalizing base with
  | nil => rfl
  | cons r rs ih =>
    have step := apply_file vars base (files r List.mem_cons_self)
    have rest := fun base => ih base fun r member => files r (List.mem_cons_of_mem _ member)
    rw [List.map_cons, List.foldlM_cons, step, List.findSome?_cons]
    cases fails : r.fatal? with
    | some error => rfl
    | none =>
      refine (rest _).trans ?_
      cases rs.findSome? fatal? with
      | some error => rfl
      | none =>
        simp only [Except.ok.injEq]
        cases loads : r.loaded? with
        | none => rw [List.filterMap_cons_none loads, Option.getD_none]
        | some settings =>
          rw [List.filterMap_cons_some loads, List.getLast?_cons, Option.getD_some, Option.getD_some]

/-- Variables that are applied again change nothing more. -/
theorem foldlM_environment (vars : Variables) (base : Settings) {rs : List Registration}
    (others : ∀ r ∈ rs, r.isFile = false) :
    (rs.map (·.registered vars)).foldlM apply base = .ok (if rs = [] then base else base.override vars) := by
  induction rs generalizing base with
  | nil => rfl
  | cons r rs ih =>
    have step := apply_environment vars base (others r List.mem_cons_self)
    rw [List.map_cons, List.foldlM_cons, step]
    refine (ih (base.override vars) fun r member => others r (List.mem_cons_of_mem _ member)).trans ?_
    rw [override_override, ite_self, if_neg (List.cons_ne_nil r rs)]

/-- What only files have can be looked for among the files alone. -/
theorem filterMap_files {α : Type} {f : Registration → Option α} (onlyFiles : ∀ required, f (.environment required) = none)
    (rs : List Registration) : (rs.filter (·.isFile)).filterMap f = rs.filterMap f := by
  rw [List.filterMap_filter]
  apply List.filterMap_congr
  intro r _
  cases r with
  | file content required => rfl
  | environment required => exact (onlyFiles required).symm

theorem foldlM_ordered (vars : Variables) (rs : List Registration) :
    (ordered (rs.map (·.registered vars))).foldlM apply {} =
      match rs.findSome? fatal? with
      | some error => .error error
      | none => .ok (merged vars rs) := by
  have failures : (rs.filter (·.isFile)).findSome? fatal? = rs.findSome? fatal? := by
    rw [← List.head?_filterMap, filterMap_files (fun _ => rfl), List.head?_filterMap]
  have loads : (rs.filter (·.isFile)).filterMap loaded? = rs.filterMap loaded? :=
    filterMap_files (fun _ => rfl) rs
  have files : ∀ r ∈ rs.filter (·.isFile), r.isFile = true := fun r member => (List.mem_filter.mp member).2
  have others : ∀ r ∈ rs.filter (!·.isFile), r.isFile = false := fun r member => by
    simpa using (List.mem_filter.mp member).2
  rw [ordered_registered, List.foldlM_append, foldlM_files vars {} files, failures, loads]
  cases rs.findSome? fatal? with
  | some error => rfl
  | none =>
    have noOthers : rs.filter (!·.isFile) = [] ↔ ¬rs.any (!·.isFile) = true := by
      simp [List.filter_eq_nil_iff]
    refine (foldlM_environment vars _ others).trans ?_
    simp only [merged, noOthers, ite_not]

/-- The settings of files and variables together. If a required file cannot be read, the answer is the error
of the first one that cannot. Else the files and variables are merged, wherever and however often the
variables are registered, and the result has to be valid. -/
theorem load_files_then_environment (vars : Variables) (rs : List Registration) :
    load (rs.map (·.registered vars)) =
      match rs.findSome? fatal? with
      | some error => .error error
      | none =>
        match (merged vars rs).validate with
        | .error error => .error error
        | .ok () => .ok (merged vars rs) := by
  unfold load
  rw [foldlM_ordered]
  cases rs.findSome? fatal? with
  | some error => rfl
  | none =>
    change (do (merged vars rs).validate; pure (merged vars rs)) = _
    cases (merged vars rs).validate <;> rfl

end Settings

end DeclSplit

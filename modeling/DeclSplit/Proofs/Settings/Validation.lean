import DeclSplit.Settings.Source

/-!
When settings are valid. Each check stands for a condition on one setting, a section is valid when all its
checks pass, and settings that were put together from sources are valid in all sections.
-/

namespace DeclSplit

namespace Validation

theorem range_eq_ok_iff {value min max : Nat} {field : String} :
    range value min max field = .ok () ↔ min ≤ value ∧ value ≤ max := by
  unfold range
  split <;> simp_all

theorem nonEmpty_eq_ok_iff {value field : String} : nonEmpty value field = .ok () ↔ Text.trim value ≠ "" := by
  unfold nonEmpty
  split <;> simp_all

/-- Two checks pass one after the other exactly when both do. -/
theorem andThen_eq_ok_iff {α : Type} {first : Except SettingsError Unit} {next : Except SettingsError α} {a : α} :
    (first >>= fun _ => next) = .ok a ↔ first = .ok () ∧ next = .ok a := by
  cases first with
  | error error => simp [bind, Except.bind]
  | ok => simp [bind, Except.bind]

theorem forM_nonEmpty_eq_ok_iff {values : List String} {field : String} :
    values.forM (nonEmpty · field) = .ok () ↔ ∀ value ∈ values, Text.trim value ≠ "" := by
  induction values with
  | nil => simp [List.forM, pure, Except.pure]
  | cons value values ih =>
    rw [List.forM, andThen_eq_ok_iff, nonEmpty_eq_ok_iff, ih, List.forall_mem_cons]

end Validation

open Validation

theorem ChunkingSettings.validate_eq_ok_iff {s : ChunkingSettings} :
    s.validate = .ok () ↔ (∀ language ∈ s.defaultLanguage, Text.trim language ≠ "") ∧
      ∀ kind ∈ s.kinds, Text.trim kind ≠ "" := by
  unfold validate
  cases s.defaultLanguage with
  | none => simpa using forM_nonEmpty_eq_ok_iff
  | some language =>
    simp only [andThen_eq_ok_iff, nonEmpty_eq_ok_iff, forM_nonEmpty_eq_ok_iff]
    simp

theorem ScanSettings.validate_eq_ok_iff {s : ScanSettings} :
    s.validate = .ok () ↔ (1 ≤ s.concurrency ∧ s.concurrency ≤ 256) ∧
      1 ≤ s.maxFileBytes ∧ s.maxFileBytes ≤ 1024 * 1024 * 1024 := by
  unfold validate
  rw [andThen_eq_ok_iff, range_eq_ok_iff, range_eq_ok_iff]

namespace Settings

theorem validate_eq_ok_iff {s : Settings} :
    s.validate = .ok () ↔ s.chunking.validate = .ok () ∧ s.scan.validate = .ok () ∧ s.logging.validate = .ok () := by
  unfold validate
  rw [andThen_eq_ok_iff, andThen_eq_ok_iff]

theorem validate_of_load {sources : List Registered} {s : Settings} (loaded : load sources = .ok s) :
    s.validate = .ok () := by
  unfold load at loaded
  cases applied : (ordered sources).foldlM apply {} with
  | error error =>
    rw [applied] at loaded
    cases loaded
  | ok settings =>
    rw [applied] at loaded
    obtain ⟨valid, same⟩ := andThen_eq_ok_iff.mp loaded
    cases same
    exact valid

end Settings

end DeclSplit

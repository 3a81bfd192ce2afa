import DeclSplit.Text.Number
import Mathlib.Data.Nat.Digits.Defs

/-!
Numbers written in decimal digits, and what they denote. A text that is no such number, or one that 64 bits
do not hold, denotes nothing.
-/

namespace DeclSplit.Text

/-- The text is decimal digits, after a plus sign or none, that stand for a number of 64 bits. -/
def Denotes (s : String) (n : Nat) : Prop :=
  ∃ digits : List Char, digits ≠ [] ∧ (∀ c ∈ digits, c.isDigit = true) ∧
    (s.toList = digits ∨ s.toList = '+' :: digits) ∧
    n = Nat.ofDigits 10 (digits.reverse.map fun c => c.toNat - '0'.toNat) ∧ n < wordLimit

theorem isDecimal_eq_isDigit (c : Char) : isDecimal c = c.isDigit := by
  rw [Bool.eq_iff_iff]
  simp only [isDecimal, Char.isDigit, ge_iff_le, UInt32.le_iff_toNat_le, Bool.and_eq_true, decide_eq_true_eq]
  exact Iff.rfl

theorem digitsValue_eq_ofDigits (digits : List Char) :
    digitsValue 0 digits = Nat.ofDigits 10 (digits.reverse.map fun c => c.toNat - '0'.toNat) := by
  rw [Nat.ofDigits_eq_foldr, List.foldr_map, List.foldr_reverse, digitsValue]
  congr 1
  funext n c
  exact Nat.add_comm _ _

theorem digitsRead_eq_some_iff {digits : List Char} {n : Nat} :
    (if !digits.isEmpty && digits.all isDecimal && digitsValue 0 digits < wordLimit then
      some (digitsValue 0 digits) else none) = some n ↔
    digits ≠ [] ∧ (∀ c ∈ digits, c.isDigit = true) ∧
      n = Nat.ofDigits 10 (digits.reverse.map fun c => c.toNat - '0'.toNat) ∧ n < wordLimit := by
  simp only [Option.ite_none_right_eq_some, Option.some.injEq, Bool.and_eq_true, Bool.not_eq_true',
    List.isEmpty_eq_false_iff, List.all_eq_true, isDecimal_eq_isDigit, decide_eq_true_eq]
  rw [digitsValue_eq_ofDigits]
  constructor
  · rintro ⟨⟨⟨some, decimal⟩, fits⟩, rfl⟩
    exact ⟨some, decimal, rfl, fits⟩
  · rintro ⟨some, decimal, rfl, fits⟩
    exact ⟨⟨⟨some, decimal⟩, fits⟩, rfl⟩

theorem word?_eq_some_iff {s : String} {n : Nat} : word? s = some n ↔ Denotes s n := by
  unfold word? Denotes
  dsimp only
  split
  · rename_i rest text
    rw [digitsRead_eq_some_iff, text]
    constructor
    · rintro ⟨some, decimal, value⟩
      exact ⟨rest, some, decimal, Or.inr rfl, value⟩
    · rintro ⟨digits, some, decimal, rfl | same, value⟩
      · -- The sign is no digit.
        cases decimal '+' List.mem_cons_self
      · cases same
        exact ⟨some, decimal, value⟩
  · rename_i unsigned
    rw [digitsRead_eq_some_iff]
    constructor
    · rintro ⟨some, decimal, value⟩
      exact ⟨s.toList, some, decimal, Or.inl rfl, value⟩
    · rintro ⟨digits, some, decimal, rfl | signed, value⟩
      · exact ⟨some, decimal, value⟩
      · exact absurd signed (unsigned digits)

theorem bool?_eq_some_iff {s : String} {b : Bool} :
    bool? s = some b ↔ s = "true" ∧ b = true ∨ s = "false" ∧ b = false := by
  unfold bool?
  split
  · rename_i isTrue
    subst isTrue
    simp [eq_comm]
  · split
    · rename_i isFalse
      subst isFalse
      simp [eq_comm]
    · simp_all

end DeclSplit.Text

import DeclSplit.Proofs.Text.Blank
import DeclSplit.Proofs.Text.Encoding
import DeclSplit.Text.AsciiCase
import Mathlib.Data.List.Forall2

/-!
Texts that differ in the case of letters alone. They are the same in lower case, and as neither blanks nor dots
have a case, they are trimmed at the same places.
-/

namespace DeclSplit.Text

/-- The same text, but for the case of letters A to Z. -/
def Recased (s t : String) : Prop :=
  List.Forall₂ (fun a b : Char => a.toLower = b.toLower) s.toList t.toList

instance (s t : String) : Decidable (Recased s t) :=
  inferInstanceAs (Decidable (List.Forall₂ _ _ _))

theorem toNat_lowerAsciiChar (c : Char) :
    (lowerAsciiChar c).toNat = if 65 ≤ c.toNat ∧ c.toNat ≤ 90 then c.toNat + 32 else c.toNat := by
  unfold lowerAsciiChar
  by_cases upper : 'A' ≤ c ∧ c ≤ 'Z'
  · have bounds : 65 ≤ c.toNat ∧ c.toNat ≤ 90 := upper
    rw [if_pos upper, if_pos bounds, toNat_ofNat (Or.inl (by omega))]
  · have bounds : ¬(65 ≤ c.toNat ∧ c.toNat ≤ 90) := upper
    rw [if_neg upper, if_neg bounds]

theorem lowerAsciiChar_eq_toLower (c : Char) : lowerAsciiChar c = c.toLower := by
  apply Char.toNat_inj.mp
  rw [toNat_lowerAsciiChar]
  by_cases upper : c.val ≥ 'A'.val ∧ c.val ≤ 'Z'.val
  · have bounds : 65 ≤ c.toNat ∧ c.toNat ≤ 90 := upper
    have lower : c.toLower = _ := dif_pos upper
    rw [if_pos bounds, lower]
    change c.toNat + 32 = (c.toNat + 32) % 2 ^ 32
    omega
  · have bounds : ¬(65 ≤ c.toNat ∧ c.toNat ≤ 90) := upper
    have lower : c.toLower = c := dif_neg upper
    rw [if_neg bounds, lower]

theorem isBlank_lowerAsciiChar (c : Char) : isBlank (lowerAsciiChar c) = isBlank c := by
  unfold isBlank
  rw [toNat_lowerAsciiChar]
  split
  · grind
  · rfl

theorem lowerAsciiChar_beq_dot (c : Char) : (lowerAsciiChar c == '.') = (c == '.') := by
  have same : lowerAsciiChar c = '.' ↔ c = '.' := by
    rw [← Char.toNat_inj, ← Char.toNat_inj, toNat_lowerAsciiChar]
    change _ = 46 ↔ _ = 46
    split <;> omega
  rw [Bool.eq_iff_iff, beq_iff_eq, beq_iff_eq, same]

theorem Recased.lowerAscii_eq {s t : String} (recased : Recased s t) : lowerAscii s = lowerAscii t := by
  have letters : s.toList.map lowerAsciiChar = t.toList.map lowerAsciiChar := by
    rw [← List.forall₂_eq_eq_eq, List.forall₂_map_left_iff, List.forall₂_map_right_iff]
    exact recased.imp fun a b same => by rw [lowerAsciiChar_eq_toLower, lowerAsciiChar_eq_toLower, same]
  rw [lowerAscii, letters, lowerAscii]

/-- Case does not matter to trimming. -/
theorem lowerAscii_trim (s : String) : lowerAscii (trim s) = trim (lowerAscii s) := by
  have blank : isBlank ∘ lowerAsciiChar = isBlank := funext isBlank_lowerAsciiChar
  simp only [lowerAscii, trim, String.toList_ofList, trimChars, dropEndWhile, List.dropWhile_map, blank,
    ← List.map_reverse]

end DeclSplit.Text

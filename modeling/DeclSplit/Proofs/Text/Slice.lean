import DeclSplit.Text.Slice
import Mathlib.Data.List.Basic

/-!
Parts of a text between the boundaries of characters. Such a part is never refused: it has exactly the
bytes of its range, and a part that is cut at a boundary in between is put together from the two.
-/

namespace DeclSplit.Text

/-- The number of line feeds among the first bytes of a text. -/
def newlinesBefore (s : String) (offset : Nat) : Nat :=
  (s.toByteArray.data.toList.take offset).count 10

theorem newlinesBefore_mono (s : String) {a b : Nat} (h : a ≤ b) :
    newlinesBefore s a ≤ newlinesBefore s b :=
  (List.take_sublist_take_left h).count_le 10

/-- An offset of a text that is not inside a character. -/
def IsCut (s : String) (offset : Nat) : Prop :=
  String.Pos.Raw.IsValid s ⟨offset⟩

instance (s : String) (offset : Nat) : Decidable (IsCut s offset) :=
  inferInstanceAs (Decidable (String.Pos.Raw.IsValid s ⟨offset⟩))

theorem IsCut.le_size {s : String} {a : Nat} (h : IsCut s a) : a ≤ s.utf8ByteSize := by
  simpa [String.Pos.Raw.le_iff] using String.Pos.Raw.IsValid.le_rawEndPos h

variable {s : String} {a b m : Nat}

/-- The part of a text between two boundaries has the bytes between them. -/
theorem toByteArray_slice (ha : IsCut s a) (hb : IsCut s b) (ordered : a ≤ b) :
    (slice s a b).toByteArray = s.toByteArray.extract a b := by
  have valid : (s.toByteArray.extract a b).IsValidUTF8 :=
    (String.Pos.Raw.isValidUTF8_extract_iff ⟨a⟩ ⟨b⟩ ordered hb.le_rawEndPos).mpr (Or.inr ⟨ha, hb⟩)
  rw [slice, if_pos ⟨ordered, hb.le_size⟩, String.fromUTF8?, dif_pos valid]
  rfl

theorem slice_append_slice (ha : IsCut s a) (hm : IsCut s m) (hb : IsCut s b) (ham : a ≤ m) (hmb : m ≤ b) :
    slice s a m ++ slice s m b = slice s a b := by
  apply String.toByteArray_inj.mp
  rw [String.toByteArray_append, toByteArray_slice ha hm ham, toByteArray_slice hm hb hmb,
    toByteArray_slice ha hb (Nat.le_trans ham hmb)]
  exact (ByteArray.extract_eq_extract_append_extract m ham hmb).symm

/-- What stands behind another text keeps its parts, be they texts or not. -/
theorem slice_append (lead s : String) (start stop : Nat) :
    slice (lead ++ s) (lead.utf8ByteSize + start) (lead.utf8ByteSize + stop) = slice s start stop := by
  have bytes : (lead ++ s).toByteArray.extract (lead.utf8ByteSize + start) (lead.utf8ByteSize + stop) =
      s.toByteArray.extract start stop := by
    rw [String.toByteArray_append]
    exact ByteArray.extract_append_size_add
  simp only [slice, bytes, String.utf8ByteSize_append, Nat.add_le_add_iff_left]

end DeclSplit.Text

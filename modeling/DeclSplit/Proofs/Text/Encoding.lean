import DeclSplit.Text.Encoding
import Mathlib.Data.List.Basic

/-!
What is read as text. Beside the reader of each encoding stands a writer, and the reader accepts what the
writer produces and nothing else. Bytes hold a text in four forms only: after one of the three marks, or
as UTF-8 without a mark, and then the text has no zero character and does not begin like a mark itself.
-/

namespace DeclSplit.Text

/-! ### UTF-8 -/

/-- The bytes of a text in UTF-8. -/
def utf8Bytes (s : String) : List UInt8 :=
  s.toUTF8.data.toList

theorem utf8Bytes_eq_flatMap (s : String) : utf8Bytes s = s.toList.flatMap String.utf8EncodeChar := by
  rw [utf8Bytes, String.toUTF8_eq_toByteArray, ← String.utf8Encode_toList, List.utf8Encode,
    List.data_toByteArray]

theorem decodeUtf8_eq_some_iff {bytes : List UInt8} {s : String} :
    decodeUtf8 bytes = some s ↔ bytes = utf8Bytes s := by
  unfold decodeUtf8 String.fromUTF8? utf8Bytes
  constructor
  · intro read
    split at read
    · cases read
      rfl
    · cases read
  · rintro rfl
    have valid : (⟨s.toUTF8.data.toList.toArray⟩ : ByteArray).IsValidUTF8 := s.isValidUTF8
    rw [dif_pos valid]
    rfl

/-- A character of one byte is that byte. The bytes of the others are beyond ASCII, and below those of the
marks of UTF-16. -/
theorem mem_utf8EncodeChar {c : Char} {b : UInt8} (member : b ∈ String.utf8EncodeChar c) :
    b.toNat = c.toNat ∧ c.toNat < 0x80 ∨ 0x80 ≤ b.toNat ∧ b.toNat < 0xF8 := by
  have value : c.val.toNat = c.toNat := rfl
  revert member
  fun_cases String.utf8EncodeChar c <;> intro member <;>
    simp only [List.mem_cons, List.not_mem_nil, or_false] at member
  case case1 =>
    left
    subst member
    rw [UInt8.toNat_ofNat']
    omega
  case case2 =>
    right
    rcases member with rfl | rfl <;> rw [UInt8.toNat_ofNat'] <;> omega
  case case3 =>
    right
    rcases member with rfl | rfl | rfl <;> rw [UInt8.toNat_ofNat'] <;> omega
  case case4 =>
    right
    rcases member with rfl | rfl | rfl | rfl <;> rw [UInt8.toNat_ofNat'] <;> omega

theorem lt_of_mem_utf8Bytes {s : String} {b : UInt8} (member : b ∈ utf8Bytes s) : b.toNat < 0xF8 := by
  rw [utf8Bytes_eq_flatMap] at member
  obtain ⟨c, -, member⟩ := List.mem_flatMap.mp member
  have := mem_utf8EncodeChar member
  omega

/-- Only the zero character has a zero byte. -/
theorem zero_mem_utf8Bytes {s : String} : 0 ∈ utf8Bytes s ↔ Char.ofNat 0 ∈ s.toList := by
  rw [utf8Bytes_eq_flatMap, List.mem_flatMap]
  constructor
  · rintro ⟨c, inText, member⟩
    have zero : (0 : UInt8).toNat = 0 := rfl
    have : c.toNat = 0 := by
      have := mem_utf8EncodeChar member
      omega
    rwa [← this, Char.ofNat_toNat]
  · intro inText
    exact ⟨_, inText, by decide⟩

/-- The mark of UTF-8 is the character U+FEFF. -/
theorem mark_isPrefix_utf8Bytes {s : String} :
    Encoding.utf8.mark <+: utf8Bytes s ↔ s.toList.head? = some '\uFEFF' := by
  have mark : Encoding.utf8.mark = String.utf8EncodeChar '\uFEFF' := by decide
  constructor
  · rintro ⟨rest, split⟩
    have encoded : ['\uFEFF'].utf8Encode ++ rest.toByteArray = s.toList.utf8Encode := by
      apply ByteArray.ext
      apply Array.toList_inj.mp
      simpa [mark, utf8Bytes_eq_flatMap, List.utf8Encode] using split
    obtain ⟨tail, split⟩ := List.isPrefix_of_utf8Encode_append_eq_utf8Encode _ encoded
    rw [← split]
    rfl
  · intro first
    obtain ⟨tail, split⟩ := List.head?_eq_some_iff.mp first
    rw [utf8Bytes_eq_flatMap, split, List.flatMap_cons, mark]
    exact List.prefix_append _ _

/-! ### UTF-16 -/

/-- The 16-bit units of a character: its number, or two surrogates where that takes more bits. -/
def unitsOf (c : Char) : List Nat :=
  if c.toNat < 0x10000 then
    [c.toNat]
  else
    [0xD800 + (c.toNat - 0x10000) / 0x400, 0xDC00 + (c.toNat - 0x10000) % 0x400]

/-- The bytes of a unit, the low one first. -/
def lowFirst (unit : Nat) : List UInt8 := [.ofNat unit, .ofNat (unit / 256)]

/-- The bytes of a unit, the high one first. -/
def highFirst (unit : Nat) : List UInt8 := [.ofNat (unit / 256), .ofNat unit]

/-- The bytes of a text in UTF-16, `split` giving those of a unit. -/
def utf16Bytes (split : Nat → List UInt8) (s : String) : List UInt8 :=
  (s.toList.flatMap unitsOf).flatMap split

example : utf16Bytes lowFirst "a😀" = [0x61, 0x00, 0x3D, 0xD8, 0x00, 0xDE] := by decide +kernel

theorem toNat_ofNat {n : Nat} (valid : n.isValidChar) : (Char.ofNat n).toNat = n := by
  rw [Char.ofNat, dif_pos valid]
  rfl

theorem decodeUnits_unitsOf_append (c : Char) (rest : List Nat) :
    decodeUnits (unitsOf c ++ rest) = (decodeUnits rest).map (c :: ·) := by
  have range : c.toNat < 0xD800 ∨ 0xDFFF < c.toNat ∧ c.toNat < 0x110000 := c.valid
  unfold unitsOf
  split
  · rename_i small
    have notHigh : isHighSurrogate c.toNat = false := by
      simp only [isHighSurrogate, Bool.and_eq_false_iff, decide_eq_false_iff_not]
      omega
    have notLow : isLowSurrogate c.toNat = false := by
      simp only [isLowSurrogate, Bool.and_eq_false_iff, decide_eq_false_iff_not]
      omega
    rw [List.singleton_append, decodeUnits.eq_def]
    simp only [notHigh, notLow, Char.ofNat_toNat, Bool.false_eq_true, if_false]
  · rename_i large
    have high : isHighSurrogate (0xD800 + (c.toNat - 0x10000) / 0x400) = true := by
      simp only [isHighSurrogate, Bool.and_eq_true, decide_eq_true_eq]
      omega
    have low : isLowSurrogate (0xDC00 + (c.toNat - 0x10000) % 0x400) = true := by
      simp only [isLowSurrogate, Bool.and_eq_true, decide_eq_true_eq]
      omega
    have code : 0x10000 + (0xD800 + (c.toNat - 0x10000) / 0x400 - 0xD800) * 0x400 +
        (0xDC00 + (c.toNat - 0x10000) % 0x400 - 0xDC00) = c.toNat := by omega
    simp only [List.cons_append, List.nil_append, decodeUnits, high, low, if_true, code, Char.ofNat_toNat]

theorem decodeUnits_flatMap (cs : List Char) : decodeUnits (cs.flatMap unitsOf) = some cs := by
  induction cs with
  | nil => rfl
  | cons c cs ih => rw [List.flatMap_cons, decodeUnits_unitsOf_append, ih, Option.map_some]

/-- A surrogate pair is the pair of the character that it stands for. -/
theorem unitsOf_pair {high low : Nat} (isHigh : isHighSurrogate high = true) (isLow : isLowSurrogate low = true) :
    unitsOf (Char.ofNat (0x10000 + (high - 0xD800) * 0x400 + (low - 0xDC00))) = [high, low] := by
  simp only [isHighSurrogate, isLowSurrogate, Bool.and_eq_true, decide_eq_true_eq] at isHigh isLow
  generalize made : 0x10000 + (high - 0xD800) * 0x400 + (low - 0xDC00) = code
  have value : (Char.ofNat code).toNat = code := toNat_ofNat (Or.inr (by omega))
  have first : 0xD800 + (code - 0x10000) / 0x400 = high := by omega
  have second : 0xDC00 + (code - 0x10000) % 0x400 = low := by omega
  rw [unitsOf, value, if_neg (by omega), first, second]

/-- A unit that is no surrogate is the unit of the character that it stands for. -/
theorem unitsOf_single {unit : Nat} (small : unit < 0x10000) (notHigh : ¬isHighSurrogate unit = true)
    (notLow : ¬isLowSurrogate unit = true) : unitsOf (Char.ofNat unit) = [unit] := by
  simp only [isHighSurrogate, isLowSurrogate, Bool.and_eq_true, decide_eq_true_eq] at notHigh notLow
  have valid : unit.isValidChar := by
    unfold Nat.isValidChar
    omega
  rw [unitsOf, toNat_ofNat valid, if_pos small]

theorem eq_flatMap_of_decodeUnits {units : List Nat} {cs : List Char} (small : ∀ u ∈ units, u < 0x10000)
    (read : decodeUnits units = some cs) : units = cs.flatMap unitsOf := by
  fun_induction decodeUnits units generalizing cs with
  | case1 =>
    cases read
    rfl
  | case2 high isHigh low rest isLow code =>
    rename_i ih
    obtain ⟨tail, readTail, rfl⟩ := Option.map_eq_some_iff.mp read
    have tailUnits := ih (fun u member => small u (by simp [member])) readTail
    rw [List.flatMap_cons, unitsOf_pair isHigh isLow, ← tailUnits]
    rfl
  | case3 | case4 | case5 => cases read
  | case6 unit rest notHigh notLow ih =>
    obtain ⟨tail, readTail, rfl⟩ := Option.map_eq_some_iff.mp read
    have tailUnits := ih (fun u member => small u (by simp [member])) readTail
    rw [List.flatMap_cons, unitsOf_single (small unit (by simp)) notHigh notLow, ← tailUnits]
    rfl

/-- Two bytes make a unit as the unit is split into them. -/
structure ByteOrder (join : UInt8 → UInt8 → Nat) (split : Nat → List UInt8) : Prop where
  small : ∀ a b, join a b < 0x10000
  split_join : ∀ a b, split (join a b) = [a, b]
  join_split : ∀ unit < 0x10000, ∃ a b, split unit = [a, b] ∧ join a b = unit

theorem ByteOrder.little : ByteOrder littleEndian lowFirst where
  small a b := by
    have := a.toNat_lt
    have := b.toNat_lt
    unfold littleEndian
    omega
  split_join a b := by
    have := a.toNat_lt
    have := b.toNat_lt
    have low : UInt8.ofNat (littleEndian a b) = a := by
      rw [UInt8.ofNat_eq_iff_mod_eq_toNat, littleEndian]
      omega
    have high : UInt8.ofNat (littleEndian a b / 256) = b := by
      rw [UInt8.ofNat_eq_iff_mod_eq_toNat, littleEndian]
      omega
    rw [lowFirst, low, high]
  join_split unit small := by
    refine ⟨_, _, rfl, ?_⟩
    rw [littleEndian, UInt8.toNat_ofNat', UInt8.toNat_ofNat']
    omega

theorem bigEndian_eq (a b : UInt8) : bigEndian a b = littleEndian b a :=
  Nat.add_comm _ _

theorem highFirst_eq (unit : Nat) : highFirst unit = (lowFirst unit).reverse :=
  rfl

theorem ByteOrder.big : ByteOrder bigEndian highFirst where
  small a b := by
    rw [bigEndian_eq]
    exact ByteOrder.little.small b a
  split_join a b := by
    rw [bigEndian_eq, highFirst_eq, ByteOrder.little.split_join]
    rfl
  join_split unit small := by
    obtain ⟨a, b, split, joined⟩ := ByteOrder.little.join_split unit small
    refine ⟨b, a, ?_, ?_⟩
    · rw [highFirst_eq, split]
      rfl
    · rw [bigEndian_eq, joined]

section
variable {join : UInt8 → UInt8 → Nat} {split : Nat → List UInt8}

theorem ByteOrder.pairUnits_flatMap (order : ByteOrder join split) {units : List Nat}
    (small : ∀ u ∈ units, u < 0x10000) : pairUnits join (units.flatMap split) = some units := by
  induction units with
  | nil => rfl
  | cons unit units ih =>
    obtain ⟨a, b, splits, joined⟩ := order.join_split unit (small unit (by simp))
    have rest := ih fun u member => small u (by simp [member])
    rw [List.flatMap_cons, splits]
    simp only [List.cons_append, List.nil_append, pairUnits, rest, joined, Option.map_some]

theorem ByteOrder.eq_flatMap_of_pairUnits (order : ByteOrder join split) {bytes : List UInt8} {units : List Nat}
    (read : pairUnits join bytes = some units) :
    bytes = units.flatMap split ∧ ∀ u ∈ units, u < 0x10000 := by
  fun_induction pairUnits join bytes generalizing units with
  | case1 =>
    cases read
    exact ⟨rfl, by simp⟩
  | case2 => cases read
  | case3 a b rest ih =>
    obtain ⟨tail, readTail, rfl⟩ := Option.map_eq_some_iff.mp read
    obtain ⟨bytesOfTail, small⟩ := ih readTail
    refine ⟨?_, ?_⟩
    · rw [List.flatMap_cons, order.split_join, ← bytesOfTail]
      rfl
    · intro u member
      rcases List.mem_cons.mp member with rfl | member
      · exact order.small a b
      · exact small u member

theorem unitsOf_lt {c : Char} {u : Nat} (member : u ∈ unitsOf c) : u < 0x10000 := by
  have range : c.toNat < 0xD800 ∨ 0xDFFF < c.toNat ∧ c.toNat < 0x110000 := c.valid
  unfold unitsOf at member
  split at member
  · obtain rfl := List.mem_singleton.mp member
    assumption
  · simp only [List.mem_cons, List.not_mem_nil, or_false] at member
    omega

theorem decodeUtf16_eq_some_iff (order : ByteOrder join split) {bytes : List UInt8} {s : String} :
    decodeUtf16 join bytes = some s ↔ bytes = utf16Bytes split s := by
  unfold decodeUtf16 utf16Bytes
  constructor
  · intro read
    obtain ⟨units, paired, read⟩ := Option.bind_eq_some_iff.mp read
    obtain ⟨cs, decoded, made⟩ := Option.bind_eq_some_iff.mp read
    obtain ⟨bytesOfUnits, small⟩ := order.eq_flatMap_of_pairUnits paired
    cases made
    rw [String.toList_ofList, ← eq_flatMap_of_decodeUnits small decoded]
    exact bytesOfUnits
  · rintro rfl
    have small : ∀ u ∈ s.toList.flatMap unitsOf, u < 0x10000 := by
      intro u member
      obtain ⟨c, -, member⟩ := List.mem_flatMap.mp member
      exact unitsOf_lt member
    simp only [order.pairUnits_flatMap small, decodeUnits_flatMap, Option.bind_eq_bind, Option.bind_some,
      String.ofList_toList]
    rfl

end

/-! ### Marks -/

/-- The bytes of a text in an encoding, without a mark. -/
def Encoding.bytes : Encoding → String → List UInt8
  | utf8 => utf8Bytes
  | utf16le => utf16Bytes lowFirst
  | utf16be => utf16Bytes highFirst

theorem Encoding.decode?_eq_some_iff (encoding : Encoding) {bytes : List UInt8} {s : String} :
    encoding.decode? bytes = some s ↔ bytes = encoding.bytes s := by
  cases encoding with
  | utf8 => exact decodeUtf8_eq_some_iff
  | utf16le => exact decodeUtf16_eq_some_iff .little
  | utf16be => exact decodeUtf16_eq_some_iff .big

theorem Encoding.ofMark?_of_isPrefix {encoding : Encoding} {bytes : List UInt8}
    (begins : encoding.mark <+: bytes) : ofMark? bytes = some encoding := by
  obtain ⟨rest, rfl⟩ := begins
  cases encoding <;> rfl

theorem Encoding.isPrefix_of_ofMark? {encoding : Encoding} {bytes : List UInt8}
    (found : ofMark? bytes = some encoding) : encoding.mark <+: bytes := by
  unfold ofMark? at found
  have begins := List.find?_some found
  exact List.isPrefixOf_iff_prefix.mp begins

theorem Encoding.ofMark?_eq_none_iff {bytes : List UInt8} :
    ofMark? bytes = none ↔ ∀ encoding : Encoding, ¬encoding.mark <+: bytes := by
  constructor
  · intro unmarked encoding begins
    rw [ofMark?_of_isPrefix begins] at unmarked
    cases unmarked
  · intro unmarked
    cases found : ofMark? bytes with
    | none => rfl
    | some encoding => exact absurd (isPrefix_of_ofMark? found) (unmarked encoding)

/-- A text in UTF-8 seems to have a mark when it begins with the character that the mark of UTF-8 is. -/
theorem ofMark?_utf8Bytes (s : String) :
    Encoding.ofMark? (utf8Bytes s) = none ↔ s.toList.head? ≠ some '\uFEFF' := by
  rw [Encoding.ofMark?_eq_none_iff, Ne, ← mark_isPrefix_utf8Bytes]
  constructor
  · intro unmarked
    exact unmarked .utf8
  · intro notFirst encoding begins
    have small : ∀ b ∈ encoding.mark, b.toNat < 0xF8 := fun b member =>
      lt_of_mem_utf8Bytes (begins.mem member)
    cases encoding with
    | utf8 => exact notFirst begins
    | utf16le => exact absurd (small 0xFF (by decide)) (by decide)
    | utf16be => exact absurd (small 0xFE (by decide)) (by decide)

theorem decodeIn_of_mark {encoding : Encoding} (other : Encoding) {bytes rest : List UInt8}
    (split : bytes = encoding.mark ++ rest) :
    decodeIn other bytes = (encoding.decode? rest).map (⟨·, encoding⟩) := by
  have found : Encoding.ofMark? bytes = some encoding := Encoding.ofMark?_of_isPrefix ⟨rest, split.symm⟩
  unfold decodeIn
  rw [found, split]
  simp only [List.drop_left]

theorem decodeIn_of_unmarked (encoding : Encoding) {bytes : List UInt8} (unmarked : Encoding.ofMark? bytes = none) :
    decodeIn encoding bytes = (encoding.decode? bytes).map (⟨·, encoding⟩) := by
  unfold decodeIn
  rw [unmarked]

/-! ### What is text -/

/-- Behind a mark stands a text in the encoding of the mark, whatever its characters are. -/
theorem decode_marked_iff {encoding : Encoding} {bytes rest : List UInt8} {d : Decoded}
    (split : bytes = encoding.mark ++ rest) :
    decode bytes = some d ↔ d.encoding = encoding ∧ rest = encoding.bytes d.text := by
  have found : Encoding.ofMark? bytes = some encoding := Encoding.ofMark?_of_isPrefix ⟨rest, split.symm⟩
  have read : decode bytes = (encoding.decode? rest).map (⟨·, encoding⟩) := by
    unfold decode
    rw [found]
    exact decodeIn_of_mark encoding split
  rw [read, Option.map_eq_some_iff]
  constructor
  · rintro ⟨text, read, rfl⟩
    exact ⟨rfl, encoding.decode?_eq_some_iff.mp read⟩
  · rintro ⟨rfl, written⟩
    exact ⟨d.text, d.encoding.decode?_eq_some_iff.mpr written, rfl⟩

/-- Without a mark stands a text in UTF-8 that has no zero character. The second attempt finds what the
first one found. -/
theorem decode_unmarked_iff {bytes : List UInt8} {d : Decoded} (unmarked : Encoding.ofMark? bytes = none) :
    decode bytes = some d ↔
      d.encoding = .utf8 ∧ bytes = utf8Bytes d.text ∧ Char.ofNat 0 ∉ d.text.toList := by
  have attempts : decode bytes = if 0 ∈ bytes then none else (decodeUtf8 bytes).map (⟨·, .utf8⟩) := by
    unfold decode
    rw [unmarked]
    simp only [List.contains_iff_mem, decodeIn_of_unmarked .utf8 unmarked]
    congr 1
    cases read : decodeUtf8 bytes with
    | none => simp [Encoding.decode?, read]
    | some text => rfl
  rw [attempts]
  constructor
  · intro read
    split at read
    · cases read
    · rename_i noZero
      obtain ⟨text, valid, rfl⟩ := Option.map_eq_some_iff.mp read
      have plain := decodeUtf8_eq_some_iff.mp valid
      rw [plain, zero_mem_utf8Bytes] at noZero
      exact ⟨rfl, plain, noZero⟩
  · obtain ⟨text, encoding⟩ := d
    rintro ⟨rfl, plain, noZero⟩
    rw [← zero_mem_utf8Bytes, ← plain] at noZero
    rw [if_neg noZero, decodeUtf8_eq_some_iff.mpr plain, Option.map_some]

theorem decode_eq_some_iff {bytes : List UInt8} {d : Decoded} :
    decode bytes = some d ↔
      bytes = d.encoding.mark ++ d.encoding.bytes d.text ∨
      d.encoding = .utf8 ∧ bytes = utf8Bytes d.text ∧ Char.ofNat 0 ∉ d.text.toList ∧
        d.text.toList.head? ≠ some '\uFEFF' := by
  constructor
  · intro read
    cases found : Encoding.ofMark? bytes with
    | some encoding =>
      obtain ⟨rest, split⟩ := Encoding.isPrefix_of_ofMark? found
      obtain ⟨same, written⟩ := (decode_marked_iff split.symm).mp read
      left
      rw [same, ← written, split]
    | none =>
      obtain ⟨plain, written, noZero⟩ := (decode_unmarked_iff found).mp read
      rw [written] at found
      exact Or.inr ⟨plain, written, noZero, (ofMark?_utf8Bytes _).mp found⟩
  · rintro (behind | ⟨plain, written, noZero, notMark⟩)
    · exact (decode_marked_iff behind).mpr ⟨rfl, rfl⟩
    · have unmarked : Encoding.ofMark? bytes = none := by
        rw [written]
        exact (ofMark?_utf8Bytes _).mpr notMark
      exact (decode_unmarked_iff unmarked).mpr ⟨plain, written, noZero⟩

/-- The four forms in which bytes hold a text, each with the name of the encoding: behind one of the three
marks, or plain where the text has no zero character and does not begin with that of the mark. -/
def Holds (bytes : List UInt8) (text label : String) : Prop :=
  bytes = [0xEF, 0xBB, 0xBF] ++ utf8Bytes text ∧ label = "UTF-8" ∨
  bytes = [0xFF, 0xFE] ++ utf16Bytes lowFirst text ∧ label = "UTF-16LE" ∨
  bytes = [0xFE, 0xFF] ++ utf16Bytes highFirst text ∧ label = "UTF-16BE" ∨
  bytes = utf8Bytes text ∧ label = "UTF-8" ∧ Char.ofNat 0 ∉ text.toList ∧
    text.toList.head? ≠ some '\uFEFF'

/-- The three marked forms and the plain one are those of `decode_eq_some_iff`, told apart by encoding. -/
theorem exists_decode_iff_holds {bytes : List UInt8} {text label : String} :
    (∃ d, decode bytes = some d ∧ d.text = text ∧ d.encoding.label = label) ↔ Holds bytes text label := by
  unfold Holds
  constructor
  · rintro ⟨⟨text, encoding⟩, read, rfl, rfl⟩
    rcases decode_eq_some_iff.mp read with behind | ⟨plain, written⟩
    · cases encoding with
      | utf8 => exact Or.inl ⟨behind, rfl⟩
      | utf16le => exact Or.inr (Or.inl ⟨behind, rfl⟩)
      | utf16be => exact Or.inr (Or.inr (Or.inl ⟨behind, rfl⟩))
    · cases plain
      exact Or.inr (Or.inr (Or.inr ⟨written.1, rfl, written.2⟩))
  · rintro (⟨behind, rfl⟩ | ⟨behind, rfl⟩ | ⟨behind, rfl⟩ | ⟨written, rfl, plain⟩)
    · exact ⟨⟨text, .utf8⟩, decode_eq_some_iff.mpr (Or.inl behind), rfl, rfl⟩
    · exact ⟨⟨text, .utf16le⟩, decode_eq_some_iff.mpr (Or.inl behind), rfl, rfl⟩
    · exact ⟨⟨text, .utf16be⟩, decode_eq_some_iff.mpr (Or.inl behind), rfl, rfl⟩
    · exact ⟨⟨text, .utf8⟩, decode_eq_some_iff.mpr (Or.inr ⟨rfl, written, plain⟩), rfl, rfl⟩

/-- Bytes are read as a text in an encoding exactly when they hold it in one of the four forms, and as none
when they hold no text. Where there is no mark and the first attempt fails, so does the second. -/
theorem decode_exactly_four_forms (bytes : List UInt8) :
    (∀ text label, (∃ d, decode bytes = some d ∧ d.text = text ∧ d.encoding.label = label) ↔
      Holds bytes text label) ∧
    (decode bytes = none ↔ ∀ text label, ¬Holds bytes text label) ∧
    (Encoding.ofMark? bytes = none ∧ decodeUtf8 bytes = none → decodeIn .utf8 bytes = none) := by
  refine ⟨fun text label => exists_decode_iff_holds, ?_, ?_⟩
  · constructor
    · intro refused text label held
      obtain ⟨d, read, -⟩ := exists_decode_iff_holds.mpr held
      rw [refused] at read
      cases read
    · intro noText
      cases read : decode bytes with
      | none => rfl
      | some d => exact absurd (exists_decode_iff_holds.mp ⟨d, read, rfl, rfl⟩) (noText _ _)
  · rintro ⟨unmarked, failed⟩
    rw [decodeIn_of_unmarked .utf8 unmarked]
    simp [Encoding.decode?, failed]

end DeclSplit.Text

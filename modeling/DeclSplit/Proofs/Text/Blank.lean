import DeclSplit.Text.Blank
import Mathlib.Data.List.DropRight

/-!
Texts without their ends. What is left after trimming has no blank at either end, so trimming it again
changes nothing; what is left of a line without its end is a part of the line from its start on.
-/

namespace DeclSplit.Text

theorem dropEndWhile_eq_rdropWhile (p : Char → Bool) (cs : List Char) : dropEndWhile p cs = cs.rdropWhile p :=
  rfl

/-! ### Trimming -/

theorem not_blank_of_head?_trimChars {cs : List Char} {c : Char} (first : c ∈ (trimChars cs).head?) :
    isBlank c = false := by
  obtain ⟨rest, shape⟩ := List.head?_eq_some_iff.mp first
  -- What is dropped at the end leaves the first character in its place.
  obtain ⟨ends, whole⟩ : trimChars cs <+: cs.dropWhile isBlank := List.rdropWhile_prefix isBlank _
  have start := List.head?_dropWhile_not isBlank cs
  rw [← whole, shape] at start
  exact start

theorem not_blank_of_getLast?_trimChars {cs : List Char} {c : Char} (last : c ∈ (trimChars cs).getLast?) :
    isBlank c = false := by
  obtain ⟨some, rfl⟩ := List.mem_getLast?_eq_getLast last
  exact eq_false_of_ne_true (List.rdropWhile_last_not isBlank (cs.dropWhile isBlank) some)

/-- Nothing is trimmed where there is no blank at either end. -/
theorem trimChars_eq_self {cs : List Char} (first : ∀ c ∈ cs.head?, isBlank c = false)
    (last : ∀ c ∈ cs.getLast?, isBlank c = false) : trimChars cs = cs := by
  have start : cs.dropWhile isBlank = cs := by
    cases cs with
    | nil => rfl
    | cons c cs => exact List.dropWhile_cons_of_neg (by simp [first c rfl])
  rw [trimChars, start, dropEndWhile_eq_rdropWhile, List.rdropWhile_eq_self_iff]
  intro some
  simp [last _ (List.getLast?_eq_getLast_of_ne_nil some)]

/-- What starts without a blank starts alike when it is trimmed. -/
theorem head?_trimChars_cons {c : Char} (solid : isBlank c = false) (cs : List Char) :
    (trimChars (c :: cs)).head? = some c := by
  have start : (c :: cs).dropWhile isBlank = c :: cs := List.dropWhile_cons_of_neg (by simp [solid])
  rw [trimChars, start, dropEndWhile_eq_rdropWhile]
  cases kept : (c :: cs).rdropWhile isBlank with
  | nil =>
    have blank := List.rdropWhile_eq_nil_iff.mp kept c List.mem_cons_self
    rw [solid] at blank
    cases blank
  | cons first rest =>
    obtain ⟨ends, whole⟩ := List.rdropWhile_prefix isBlank (c :: cs)
    rw [kept] at whole
    cases whole
    rfl

theorem trimChars_trimChars (cs : List Char) : trimChars (trimChars cs) = trimChars cs :=
  trimChars_eq_self (fun _ => not_blank_of_head?_trimChars) fun _ => not_blank_of_getLast?_trimChars

@[simp] theorem trim_trim (s : String) : trim (trim s) = trim s := by
  simp only [trim, String.toList_ofList, trimChars_trimChars]

/-- A text that is not empty and has no blank at either end. -/
structure Trimmed (s : String) : Prop where
  nonempty : s ≠ ""
  first : ∀ c ∈ s.toList.head?, isBlank c = false
  last : ∀ c ∈ s.toList.getLast?, isBlank c = false

theorem trimmed?_eq_some_iff {s t : String} : trimmed? s = some t ↔ trim s = t ∧ t ≠ "" := by
  by_cases blank : trim s = ""
  · simp [trimmed?, blank]
  · simp only [trimmed?, blank, if_false, Option.some.injEq]
    exact ⟨fun same => ⟨same, same ▸ blank⟩, fun left => left.1⟩

theorem trimmed_of_trimmed? {s t : String} (left : trimmed? s = some t) : Trimmed t := by
  obtain ⟨rfl, nonempty⟩ := trimmed?_eq_some_iff.mp left
  refine ⟨nonempty, fun c first => ?_, fun c last => ?_⟩
  · rw [trim, String.toList_ofList] at first
    exact not_blank_of_head?_trimChars first
  · rw [trim, String.toList_ofList] at last
    exact not_blank_of_getLast?_trimChars last

/-- What is left of several texts, without those of which nothing is. -/
theorem filterMap_trimmed? (texts : List String) :
    texts.filterMap trimmed? = (texts.map trim).filter (· ≠ "") := by
  induction texts with
  | nil => rfl
  | cons text texts ih =>
    by_cases blank : trim text = ""
    · simp [trimmed?, blank, ih]
    · simp [trimmed?, blank, ih]

/-! ### Blanks around a text -/

/-- A text of blanks only. -/
def Blank (s : String) : Prop :=
  ∀ c ∈ s.toList, isBlank c = true

instance (s : String) : Decidable (Blank s) :=
  decidable_of_iff (s.toList.all isBlank = true) List.all_eq_true

theorem trimChars_pad {before after : List Char} (cs : List Char) (blankBefore : ∀ c ∈ before, isBlank c = true)
    (blankAfter : ∀ c ∈ after, isBlank c = true) : trimChars (before ++ cs ++ after) = trimChars cs := by
  have ends : ∀ kept : List Char, dropEndWhile isBlank (kept ++ after) = dropEndWhile isBlank kept := by
    intro kept
    rw [dropEndWhile, List.reverse_append, List.dropWhile_append_of_pos (by simpa using blankAfter)]
    rfl
  unfold trimChars
  rw [List.append_assoc, List.dropWhile_append_of_pos blankBefore, List.dropWhile_append]
  split
  · rename_i nothing
    rw [List.isEmpty_iff.mp nothing, List.dropWhile_eq_nil_iff.mpr blankAfter]
  · exact ends _

theorem trim_pad {before after : String} (s : String) (blankBefore : Blank before) (blankAfter : Blank after) :
    trim (before ++ s ++ after) = trim s := by
  rw [trim, String.toList_append, String.toList_append, trimChars_pad _ blankBefore blankAfter, trim]

theorem trim_of_blank {s : String} (blank : Blank s) : trim s = "" := by
  have nothing : trimChars s.toList = [] := by
    rw [trimChars, List.dropWhile_eq_nil_iff.mpr blank]
    rfl
  rw [trim, nothing]

theorem Trimmed.trim_eq {s : String} (trimmed : Trimmed s) : trim s = s := by
  rw [trim, trimChars_eq_self trimmed.first trimmed.last, String.ofList_toList]

theorem trim_ne_of_trimmed? {s t : String} (left : trimmed? s = some t) : trim t ≠ "" := by
  have trimmed := trimmed_of_trimmed? left
  rw [trimmed.trim_eq]
  exact trimmed.nonempty

theorem trimmed?_pad {before s after : String} (blankBefore : Blank before) (trimmed : Trimmed s)
    (blankAfter : Blank after) : trimmed? (before ++ s ++ after) = some s := by
  rw [trimmed?_eq_some_iff, trim_pad s blankBefore blankAfter]
  exact ⟨trimmed.trim_eq, trimmed.nonempty⟩

theorem trimmed?_of_blank {s : String} (blank : Blank s) : trimmed? s = none :=
  if_pos (trim_of_blank blank)

/-! ### Lists -/

theorem splitChars_eq_splitOn (separator : Char) (cs : List Char) :
    splitChars separator cs = cs.splitOn separator := by
  induction cs with
  | nil => rfl
  | cons c cs ih =>
    rw [List.splitOn, List.splitOnP_cons_eq_if_modifyHead, ← List.splitOn, ← ih, splitChars]
    by_cases same : c = separator
    · simp [same]
    · simp only [same, if_false, beq_iff_eq]
      rw [ih]
      cases parts : cs.splitOn separator with
      | nil => exact absurd parts (List.splitOn_ne_nil separator cs)
      | cons part parts => rfl

/-- Items without a separator are found again between separators. -/
theorem split_intercalate {items : List String} (some : items ≠ []) (plain : ∀ item ∈ items, ',' ∉ item.toList) :
    split ',' (",".intercalate items) = items := by
  have parts : splitChars ',' (",".intercalate items).toList = items.map String.toList := by
    rw [splitChars_eq_splitOn, String.toList_intercalate]
    exact List.splitOn_intercalate ',' (by simpa using plain) (by simpa using some)
  rw [split, parts, List.map_map]
  simp

/-- The texts in order as items, each with any blanks around it, and any number of blank items among them. -/
inductive Padded : List String → List String → Prop where
  | nil : Padded [] []
  | blank {texts items : List String} {item : String} (blank : Blank item) (rest : Padded texts items) :
      Padded texts (item :: items)
  | text {texts items : List String} {before after : String} (text : String) (blankBefore : Blank before)
      (blankAfter : Blank after) (rest : Padded texts items) :
      Padded (text :: texts) ((before ++ text ++ after) :: items)

theorem Blank.plain {s : String} (blank : Blank s) : ',' ∉ s.toList :=
  fun member => absurd (blank ',' member) (by decide)

theorem Padded.plain {texts items : List String} (padded : Padded texts items)
    (plain : ∀ text ∈ texts, ',' ∉ text.toList) : ∀ item ∈ items, ',' ∉ item.toList := by
  induction padded with
  | nil => exact plain
  | blank blank rest ih => exact List.forall_mem_cons.mpr ⟨blank.plain, ih plain⟩
  | text text blankBefore blankAfter rest ih =>
    obtain ⟨first, others⟩ := List.forall_mem_cons.mp plain
    refine List.forall_mem_cons.mpr ⟨?_, ih others⟩
    simp [blankBefore.plain, first, blankAfter.plain]

theorem Padded.filterMap_trimmed? {texts items : List String} (padded : Padded texts items)
    (trimmed : ∀ text ∈ texts, Trimmed text) : items.filterMap trimmed? = texts := by
  induction padded with
  | nil => rfl
  | blank blank rest ih => rw [List.filterMap_cons_none (trimmed?_of_blank blank), ih trimmed]
  | text text blankBefore blankAfter rest ih =>
    obtain ⟨first, others⟩ := List.forall_mem_cons.mp trimmed
    rw [List.filterMap_cons_some (trimmed?_pad blankBefore first blankAfter), ih others]

/-- What is between commas is read without the blanks and the blank items. -/
theorem listItems_of_padded {texts items : List String} (padded : Padded texts items)
    (trimmed : ∀ text ∈ texts, Trimmed text) (plain : ∀ text ∈ texts, ',' ∉ text.toList) :
    listItems (",".intercalate items) = texts := by
  by_cases some : items = []
  · subst some
    cases padded
    decide
  · rw [listItems, split_intercalate some (padded.plain plain), padded.filterMap_trimmed? trimmed]

/-! ### Line ends -/

/-- `line` is `text` without the line feeds and carriage returns at its end. -/
structure IsLineOf (text line : String) : Prop where
  rest : ∃ ends : String, text = line ++ ends ∧ ∀ c ∈ ends.toList, c = '\n' ∨ c = '\r'
  last : ∀ c ∈ line.toList.getLast?, c ≠ '\n' ∧ c ≠ '\r'

theorem isLineOf_trimLineEnd (s : String) : IsLineOf s (trimLineEnd s) := by
  constructor
  case rest =>
    refine ⟨String.ofList (s.toList.rtakeWhile fun c => c == '\n' || c == '\r'), ?_, ?_⟩
    · rw [trimLineEnd, dropEndWhile_eq_rdropWhile, ← String.ofList_append, List.rdropWhile_append_rtakeWhile,
        String.ofList_toList]
    · intro c member
      rw [String.toList_ofList] at member
      simpa using List.mem_rtakeWhile_imp member
  case last =>
    intro c last
    rw [trimLineEnd, String.toList_ofList, dropEndWhile_eq_rdropWhile] at last
    obtain ⟨some, rfl⟩ := List.mem_getLast?_eq_getLast last
    simpa using List.rdropWhile_last_not (fun c => c == '\n' || c == '\r') s.toList some

end DeclSplit.Text

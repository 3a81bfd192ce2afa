import DeclSplit.Proofs.Settings.Setting
import DeclSplit.Proofs.Text.Number
import DeclSplit.Settings.Variables

/-!
Settings and the variables that replace them. Each setting looks at its own variable alone, so it makes no
difference whether variables are applied once or several times, and variables that come from two places may
be applied in either order or together as long as no variable comes from both.
-/

namespace DeclSplit

/-- What a variable gives for a setting of the form, if it gives anything. -/
def Form.read : (form : Form) → String → Option form.Value
  | optionalText, value => some (Text.trimmed? value)
  | texts, value => some (Text.listItems value)
  | number, value => Text.word? (Text.trim value)
  | flag, value => Text.bool? (Text.trim value)
  | text, value => some (Text.lower (Text.trim value))

namespace Variables

def Apart (vars others : Variables) : Prop :=
  ∀ name, vars name = none ∨ others name = none

def union (vars others : Variables) : Variables :=
  fun name => (vars name).or (others name)

theorem Apart.symm {vars others : Variables} (apart : vars.Apart others) : others.Apart vars :=
  fun name => (apart name).symm

theorem Apart.union_comm {vars others : Variables} (apart : vars.Apart others) :
    vars.union others = others.union vars := by
  funext name
  unfold union
  rcases apart name with absent | absent
  · rw [absent, Option.none_or, Option.or_none]
  · rw [absent, Option.none_or, Option.or_none]

end Variables

namespace Settings

variable {form : Form}

theorem get_override (s : Settings) (vars : Variables) (k : Setting form) :
    (s.override vars).get k = ((vars k.variableName).bind form.read).getD (s.get k) := by
  cases k with
  | defaultLanguage =>
    simp only [get, override, ChunkingSettings.override, Setting.variableName]
    cases vars "CODECHUNK_CHUNKING_DEFAULT_LANGUAGE" with
    | none => rfl
    | some value => simp only [Option.bind_some, Form.read, Option.getD_some]
  | kinds =>
    simp only [get, override, ChunkingSettings.override, Setting.variableName]
    cases vars "CODECHUNK_CHUNKING_KINDS" <;> rfl
  | level =>
    simp only [get, override, LoggingSettings.override, Setting.variableName]
    cases vars "CODECHUNK_LOG_LEVEL" <;> rfl
  | _ => rfl

theorem override_override (s : Settings) (vars : Variables) : (s.override vars).override vars = s.override vars := by
  apply ext_get
  intro form k
  rw [get_override, get_override]
  cases (vars k.variableName).bind form.read <;> rfl

theorem override_override_of_apart (s : Settings) {vars others : Variables} (apart : vars.Apart others) :
    (s.override vars).override others = s.override (vars.union others) := by
  apply ext_get
  intro form k
  rw [get_override, get_override, get_override, Variables.union]
  rcases apart k.variableName with absent | absent
  · rw [absent]
    rfl
  · rw [absent, Option.or_none]
    rfl

theorem get_override_congr (k : Setting form) {s t : Settings} {vars others : Variables} (base : s.get k = t.get k)
    (own : vars k.variableName = others k.variableName) : (s.override vars).get k = (t.override others).get k := by
  rw [get_override, get_override, base, own]

section Read
variable {s : Settings} {vars : Variables} {value : String}

theorem get_override_of_read {k : Setting form} {x : form.Value} (given : vars k.variableName = some value)
    (read : form.read value = some x) : (s.override vars).get k = x := by
  rw [get_override, given, Option.bind_some, read, Option.getD_some]

theorem get_override_of_unread {k : Setting form} (given : vars k.variableName = some value)
    (unread : form.read value = none) : (s.override vars).get k = s.get k := by
  rw [get_override, given, Option.bind_some, unread, Option.getD_none]

theorem get_override_number {k : Setting .number} (given : vars k.variableName = some value) :
    (∀ n, Text.Denotes (Text.trim value) n → (s.override vars).get k = n) ∧
      ((∀ n, ¬Text.Denotes (Text.trim value) n) → (s.override vars).get k = s.get k) := by
  constructor
  · intro n denotes
    have read : Form.number.read value = some n := by
      rw [Form.read]
      exact Text.word?_eq_some_iff.mpr denotes
    exact get_override_of_read given read
  · intro none
    apply get_override_of_unread given
    exact Option.eq_none_iff_forall_ne_some.mpr fun n read => none n (Text.word?_eq_some_iff.mp read)

theorem get_override_flag {k : Setting .flag} (given : vars k.variableName = some value) :
    (Text.trim value = "true" → (s.override vars).get k = true) ∧
      (Text.trim value = "false" → (s.override vars).get k = false) ∧
      (Text.trim value ≠ "true" → Text.trim value ≠ "false" → (s.override vars).get k = s.get k) := by
  refine ⟨fun isTrue => ?_, fun isFalse => ?_, fun notTrue notFalse => ?_⟩
  · exact get_override_of_read given (Text.bool?_eq_some_iff.mpr (Or.inl ⟨isTrue, rfl⟩))
  · exact get_override_of_read given (Text.bool?_eq_some_iff.mpr (Or.inr ⟨isFalse, rfl⟩))
  · apply get_override_of_unread given
    refine Option.eq_none_iff_forall_ne_some.mpr fun b read => ?_
    rcases Text.bool?_eq_some_iff.mp read with ⟨isTrue, -⟩ | ⟨isFalse, -⟩
    · exact notTrue isTrue
    · exact notFalse isFalse

end Read

/-- Variables replace settings one by one. Each setting has a variable of its own and depends on that and on what
it was; a variable for a number or a truth value replaces it with what it denotes and leaves it alone if it
denotes nothing, as a number beyond 64 bits does. Applied again, variables change nothing more, and variables
that are apart may be applied in either order or together. -/
theorem variables_replace_one_by_one :
    (Function.Injective fun k : (form : Form) × Setting form => k.2.variableName) ∧
    (∀ {form : Form} (k : Setting form) (s t : Settings) (vars others : Variables), s.get k = t.get k →
      vars k.variableName = others k.variableName → (s.override vars).get k = (t.override others).get k) ∧
    (∀ (k : Setting .number) (s : Settings) (vars : Variables) (value : String), vars k.variableName = some value →
      (∀ n, Text.Denotes (Text.trim value) n → (s.override vars).get k = n) ∧
        ((∀ n, ¬Text.Denotes (Text.trim value) n) → (s.override vars).get k = s.get k)) ∧
    (∀ (k : Setting .flag) (s : Settings) (vars : Variables) (value : String), vars k.variableName = some value →
      (Text.trim value = "true" → (s.override vars).get k = true) ∧
        (Text.trim value = "false" → (s.override vars).get k = false) ∧
        (Text.trim value ≠ "true" → Text.trim value ≠ "false" → (s.override vars).get k = s.get k)) ∧
    (∀ (s : Settings) (vars : Variables), (s.override vars).override vars = s.override vars) ∧
    ∀ (s : Settings) (vars others : Variables), vars.Apart others →
      (s.override vars).override others = s.override (vars.union others) ∧
        (s.override others).override vars = s.override (vars.union others) := by
  refine ⟨Setting.variableName_injective, fun k s t vars others base own => get_override_congr k base own,
    fun k s vars value given => get_override_number given, fun k s vars value given => get_override_flag given,
    override_override, fun s vars others apart => ⟨override_override_of_apart s apart, ?_⟩⟩
  rw [apart.union_comm]
  exact override_override_of_apart s apart.symm

/-! ### A number beyond 64 bits -/

/-- Twelve files at a time, and a size that 64 bits do not hold. -/
def tooWide : Variables := fun name =>
  if name = "CODECHUNK_SCAN_CONCURRENCY" then some " +12 "
  else if name = "CODECHUNK_SCAN_MAX_FILE_BYTES" then some "18446744073709551616"
  else none

/-- Two truth values, one of them in capitals. -/
def inCapitals : Variables := fun name =>
  if name = "CODECHUNK_SCAN_FOLLOW_LINKS" then some "TRUE"
  else if name = "CODECHUNK_LOG_JSON" then some "true"
  else none

theorem tooWide_apart_inCapitals : tooWide.Apart inCapitals := by
  intro name
  by_cases files : name = "CODECHUNK_SCAN_CONCURRENCY"
  · exact Or.inr (by simp [inCapitals, files])
  · by_cases bytes : name = "CODECHUNK_SCAN_MAX_FILE_BYTES"
    · exact Or.inr (by simp [inCapitals, bytes])
    · exact Or.inl (by simp [tooWide, files, bytes])

theorem tooWide_then_inCapitals :
    (({} : Settings).override tooWide).get .concurrency = 12 ∧
    (({} : Settings).override tooWide).get .maxFileBytes = 2097152 ∧
    (({} : Settings).override inCapitals).get .followLinks = false ∧
    (({} : Settings).override inCapitals).get .json = true ∧
    (({} : Settings).override (tooWide.union inCapitals)).get .json = true ∧
    tooWide.Apart inCapitals ∧
    (({} : Settings).override tooWide).override inCapitals = ({} : Settings).override (tooWide.union inCapitals) ∧
    (({} : Settings).override inCapitals).override tooWide = ({} : Settings).override (tooWide.union inCapitals) := by
  obtain ⟨-, depends, numbers, flags, -, together⟩ := variables_replace_one_by_one
  have twelve : Text.Denotes (Text.trim " +12 ") 12 := Text.word?_eq_some_iff.mp (by decide)
  have wide : ∀ n, ¬Text.Denotes (Text.trim "18446744073709551616") n := fun n denotes => by
    have read : Text.word? (Text.trim "18446744073709551616") = none := by decide
    rw [Text.word?_eq_some_iff.mpr denotes] at read
    cases read
  have json : (({} : Settings).override inCapitals).get .json = true :=
    (flags .json {} inCapitals "true" rfl).1 (by decide)
  refine ⟨(numbers .concurrency {} tooWide " +12 " rfl).1 12 twelve,
    (numbers .maxFileBytes {} tooWide "18446744073709551616" rfl).2 wide,
    (flags .followLinks {} inCapitals "TRUE" rfl).2.2 (by decide) (by decide), json, ?_, tooWide_apart_inCapitals,
    together {} tooWide inCapitals tooWide_apart_inCapitals⟩
  have own : tooWide.union inCapitals Setting.json.variableName = inCapitals Setting.json.variableName := by
    simp [Variables.union, tooWide, Setting.variableName]
  exact (depends .json {} {} (tooWide.union inCapitals) inCapitals rfl own).trans json

end Settings

end DeclSplit

import DeclSplit.Json
import Mathlib.Data.List.Basic
import Mathlib.Data.List.Nodup

/-!
Values that records are read from. Each reader of a member answers for certain values and no others; a record
is an object or an array with members under given names, and an object whose members stand in the order of the
names can be told from what is found under each of them. Members with other names make no difference to
what is read, and those that are taken out stand for their defaults.
-/

namespace DeclSplit

namespace Json

/-! ### Single members -/

theorem string?_eq_some_iff {j : Json} {s : String} : j.string? = some s ↔ j = .str s := by
  cases j <;> simp [string?]

theorem optionalString?_eq_some_iff {j : Json} {o : Option String} :
    j.optionalString? = some o ↔ j = .null ∧ o = none ∨ ∃ s, j = .str s ∧ o = some s := by
  cases j <;> simp [optionalString?, eq_comm]

theorem word?_eq_some_iff {j : Json} {n : Nat} :
    j.word? = some n ↔ j = .ofNat n ∧ n < Text.wordLimit := by
  cases j with
  | int value =>
    simp only [word?, ofNat, int.injEq, Option.ite_none_right_eq_some, Option.some.injEq]
    constructor
    · rintro ⟨⟨positive, small⟩, rfl⟩
      exact ⟨(Int.toNat_of_nonneg positive).symm, small⟩
    · rintro ⟨rfl, small⟩
      exact ⟨⟨Int.natCast_nonneg n, small⟩, Int.toNat_natCast n⟩
  | _ => simp [word?, ofNat]

theorem mapM_string?_eq_some_iff {items : List Json} {texts : List String} :
    items.mapM string? = some texts ↔ items = texts.map .str := by
  induction items generalizing texts with
  | nil => cases texts <;> simp
  | cons item items ih =>
    simp only [List.mapM_cons, Option.bind_eq_bind, Option.bind_eq_some_iff, string?_eq_some_iff, ih]
    constructor
    · rintro ⟨text, rfl, rest, rfl, same⟩
      cases same
      rfl
    · intro written
      obtain ⟨text, rest, rfl, rfl, rfl⟩ := List.map_eq_cons_iff.mp written.symm
      exact ⟨text, rfl, rest, rfl, rfl⟩

theorem strings?_eq_some_iff {j : Json} {texts : List String} :
    j.strings? = some texts ↔ j = .ofStrings texts := by
  cases j with
  | arr items => simp [strings?, ofStrings, mapM_string?_eq_some_iff]
  | _ => simp [strings?, ofStrings]

theorem required_eq_some_iff {α : Type} {read : Json → Option α} {member : Option Json} {x : α} :
    required read member = some x ↔ ∃ j, member = some j ∧ read j = some x :=
  Option.bind_eq_some_iff

theorem withDefault_eq_some_iff {α : Type} {absent : α} {read : Json → Option α} {member : Option Json} {x : α} :
    withDefault absent read member = some x ↔
      member = none ∧ x = absent ∨ ∃ j, member = some j ∧ read j = some x := by
  cases member <;> simp [withDefault, eq_comm]

/-- A member that holds a text or none: if there is none, the member is missing or null. -/
inductive HoldsText : Option Json → Option String → Prop where
  | missing : HoldsText none none
  | null : HoldsText (some .null) none
  | text (s : String) : HoldsText (some (.str s)) (some s)

theorem withDefault_optionalString?_iff {member : Option Json} {o : Option String} :
    withDefault none optionalString? member = some o ↔ HoldsText member o := by
  rw [withDefault_eq_some_iff]
  constructor
  · rintro (⟨rfl, rfl⟩ | ⟨j, rfl, read⟩)
    · exact .missing
    · rcases optionalString?_eq_some_iff.mp read with ⟨rfl, rfl⟩ | ⟨s, rfl, rfl⟩
      · exact .null
      · exact .text s
  · rintro (_ | _ | s)
    · exact Or.inl ⟨rfl, rfl⟩
    · exact Or.inr ⟨_, rfl, rfl⟩
    · exact Or.inr ⟨_, rfl, rfl⟩

theorem holdsText_map (o : Option String) : HoldsText (o.map .str) o := by
  cases o with
  | none => exact .missing
  | some s => exact .text s

theorem HoldsText.eq_map {member : Option Json} {o : Option String} (holds : HoldsText member o)
    (filled : member ≠ some .null) : member = o.map .str := by
  cases holds with
  | missing => rfl
  | null => exact absurd rfl filled
  | text s => rfl

theorem withDefault_strings?_iff {member : Option Json} {texts : List String} :
    withDefault [] strings? member = some texts ↔
      member = some (.ofStrings texts) ∨ member = none ∧ texts = [] := by
  simp only [withDefault_eq_some_iff, strings?_eq_some_iff, exists_eq_right]
  exact Or.comm

/-! ### Records -/

theorem lookup_cons_of_ne {name key : String} (different : name ≠ key) (value : Json)
    (members : List (String × Json)) : ((key, value) :: members).lookup name = members.lookup name := by
  rw [List.lookup_cons, beq_eq_false_iff_ne.mpr different]

/-- A record with members under the given names: an object that has them, whatever else it has, or an array
of them in order, the last of which may be missing. -/
inductive Record (names : List String) : Json → List (Option Json) → Prop where
  | object (members : List (String × Json)) : Record names (.obj members) (names.map (members.lookup ·))
  | array (items : List Json) (missing : Nat) (all : items.length + missing = names.length) :
      Record names (.arr items) (items.map some ++ List.replicate missing none)

theorem members?_eq_some_iff {names : List String} {j : Json} {ms : List (Option Json)} :
    j.members? names = some ms ↔ Record names j ms := by
  constructor
  · intro read
    cases j with
    | obj members =>
      cases read
      exact .object members
    | arr items =>
      simp only [members?, Option.ite_none_right_eq_some, Option.some.injEq] at read
      obtain ⟨short, rfl⟩ := read
      exact .array items _ (by omega)
    | _ => cases read
  · rintro (members | ⟨items, missing, all⟩)
    · rfl
    · have short : items.length ≤ names.length := by omega
      have rest : names.length - items.length = missing := by omega
      rw [members?, if_pos short, rest]

/-- The members of an object stand in the order of the names, and none of them is null. -/
structure Tidy (names : List String) (members : List (String × Json)) : Prop where
  keys : (members.map (·.1)).Sublist names
  filled : ∀ m ∈ members, m.2 ≠ .null

theorem Tidy.lookup_ne_null {names : List String} {members : List (String × Json)} (tidy : Tidy names members)
    (name : String) : members.lookup name ≠ some .null := by
  intro found
  obtain ⟨before, after, rfl, -⟩ := List.lookup_eq_some_iff.mp found
  exact tidy.filled (name, .null) (by simp) rfl

/-- Members that stand in the order of the names can be told from what is found under each name. -/
theorem eq_filterMap_lookup {names : List String} {members : List (String × Json)} (distinct : names.Nodup)
    (keys : (members.map (·.1)).Sublist names) :
    members = names.filterMap fun name => (members.lookup name).map (name, ·) := by
  induction names generalizing members with
  | nil =>
    obtain rfl : members = [] := by simpa using keys
    rfl
  | cons name names ih =>
    obtain ⟨fresh, restDistinct⟩ := List.nodup_cons.mp distinct
    rcases List.sublist_cons_iff.mp keys with keys | ⟨rest, first, keys⟩
    · have absent : members.lookup name = none := by
        rw [List.lookup_eq_none_iff]
        intro m member
        have inNames : m.1 ∈ names := keys.subset (List.mem_map_of_mem member)
        exact bne_iff_ne.mpr fun same => fresh (same ▸ inNames)
      rw [List.filterMap_cons_none (by rw [absent, Option.map_none])]
      exact ih restDistinct keys
    · obtain ⟨⟨key, value⟩, members, rfl, rfl, rfl⟩ := List.map_eq_cons_iff.mp first
      have others : ∀ name ∈ names, ((key, value) :: members).lookup name = members.lookup name := by
        intro name member
        exact lookup_cons_of_ne (ne_of_mem_of_not_mem member fresh) value members
      simp only [List.filterMap_cons, List.lookup_cons_self, Option.map_some, List.cons.injEq, true_and]
      rw [List.filterMap_congr fun name member => by rw [others name member]]
      exact ih restDistinct keys

/-! ### Edited objects -/

/-- The members of an object after an edit. Members under `gone` were taken out, all others are still there with
values that are `alike`, and what was put in has none of the names. -/
inductive Edited (names : List String) (gone : String → Bool) (alike : String → Json → Json → Prop) :
    List (String × Json) → List (String × Json) → Prop where
  | nil : Edited names gone alike [] []
  | takenOut {key : String} {value : Json} {before after : List (String × Json)} (out : gone key = true)
      (rest : Edited names gone alike before after) : Edited names gone alike ((key, value) :: before) after
  | kept {key : String} {value value' : Json} {before after : List (String × Json)} (stays : gone key = false)
      (same : alike key value value') (rest : Edited names gone alike before after) :
      Edited names gone alike ((key, value) :: before) ((key, value') :: after)
  | putIn {key : String} {value : Json} {before after : List (String × Json)} (unknown : key ∉ names)
      (rest : Edited names gone alike before after) : Edited names gone alike before ((key, value) :: after)

/-- An object whose members were edited. -/
def EditedObject (names : List String) (gone : String → Bool) (alike : String → Json → Json → Prop)
    (j j' : Json) : Prop :=
  ∃ before after, j = .obj before ∧ j' = .obj after ∧ Edited names gone alike before after

section Edited
variable {names : List String} {gone : String → Bool} {alike : String → Json → Json → Prop}
  {before after : List (String × Json)}

theorem Edited.lookup_of_gone (edited : Edited names gone alike before after) {name : String} (known : name ∈ names)
    (out : gone name = true) : after.lookup name = none := by
  induction edited with
  | nil => rfl
  | takenOut _ _ ih => exact ih
  | kept stays _ _ ih =>
    rw [lookup_cons_of_ne (ne_of_apply_ne gone (by rw [out, stays]; decide)), ih]
  | putIn unknown _ ih => rw [lookup_cons_of_ne (ne_of_mem_of_not_mem known unknown), ih]

theorem Edited.lookup_of_kept (edited : Edited names gone alike before after) {name : String} (known : name ∈ names)
    (stays : gone name = false) {value : Json} (found : before.lookup name = some value) :
    ∃ value', after.lookup name = some value' ∧ alike name value value' := by
  induction edited with
  | nil => cases found
  | takenOut out _ ih =>
    rw [lookup_cons_of_ne (ne_of_apply_ne gone (by rw [out, stays]; decide))] at found
    exact ih found
  | @kept key _ value' _ _ _ same _ ih =>
    by_cases this : name = key
    · subst this
      rw [List.lookup_cons_self] at found ⊢
      cases found
      exact ⟨value', rfl, same⟩
    · rw [lookup_cons_of_ne this] at found ⊢
      exact ih found
  | putIn unknown _ ih =>
    rw [lookup_cons_of_ne (ne_of_mem_of_not_mem known unknown)]
    exact ih found

/-- A member that was taken out is read as its default, and any other one as before. -/
theorem Edited.read_member {α : Type} (edited : Edited names gone alike before after) (name : String)
    (known : name ∈ names) {value : Json} (found : before.lookup name = some value) {read : Json → Option α} {x : α}
    (absent : α) (reads : ∀ value', alike name value value' → read value' = some x) :
    withDefault absent read (after.lookup name) = some (if gone name then absent else x) := by
  cases out : gone name with
  | true =>
    rw [edited.lookup_of_gone known out]
    rfl
  | false =>
    obtain ⟨value', still, same⟩ := edited.lookup_of_kept known out found
    rw [still]
    exact reads value' same

theorem Edited.refl (same : ∀ key value, alike key value value) (members : List (String × Json)) :
    Edited names (fun _ => false) alike members members := by
  induction members with
  | nil => exact .nil
  | cons m members ih => exact .kept rfl (same m.1 m.2) ih

end Edited

end Json

end DeclSplit

import DeclSplit.Language.Resolve
import DeclSplit.Proofs.Text.AsciiCase
import Mathlib.Data.Finmap
import Mathlib.Data.List.Induction

/-!
Which language a text stands for. No two languages share a name or an extension, so it does not matter in which
order they are asked, or in which order a table of their extensions is filled. Neither case nor leading dots change
what an extension stands for, neither case nor blanks around it what a name does, and a text that is both a name
and an extension stands for one language.
-/

namespace DeclSplit.Language
variable {s : String} {l m : Language}

/-! ### Extensions -/

/-- An extension as it stands in the registry, in lower case and without leading dots. -/
def plainExtension (s : String) : String :=
  Text.lowerAscii (String.ofList (s.toList.dropWhile (· == '.')))

theorem plainExtension_eq (s : String) :
    plainExtension s = String.ofList ((Text.lowerAscii s).toList.dropWhile (· == '.')) := by
  have dot : (· == '.') ∘ Text.lowerAsciiChar = (· == '.') := funext Text.lowerAsciiChar_beq_dot
  simp only [plainExtension, Text.lowerAscii, String.toList_ofList, List.dropWhile_map, dot]

theorem plainExtension_dots (n : Nat) (s : String) :
    plainExtension (String.ofList (List.replicate n '.') ++ s) = plainExtension s := by
  have dropped : (List.replicate n '.' ++ s.toList).dropWhile (· == '.') = s.toList.dropWhile (· == '.') :=
    List.dropWhile_append_of_pos (by simp)
  rw [plainExtension, String.toList_append, String.toList_ofList, dropped, plainExtension]

/-- What holds of one language at most is found whatever the order. -/
theorem find?_all_eq_some_iff {p : Language → Bool} (single : ∀ l m, p l = true → p m = true → l = m) :
    all.find? p = some l ↔ p l = true := by
  refine ⟨List.find?_some, fun holds => ?_⟩
  obtain ⟨m, found⟩ := Option.isSome_iff_exists.mp (List.find?_isSome.mpr ⟨l, mem_all l, holds⟩)
  rw [found, single l m holds (List.find?_some found)]

theorem eq_of_extension {e : String} (held : e ∈ l.profile.extensions) (also : e ∈ m.profile.extensions) : l = m := by
  have single : ∀ l ∈ all, ∀ m ∈ all, ∀ e ∈ l.profile.extensions, e ∈ m.profile.extensions → l = m := by
    decide +kernel
  exact single l (mem_all l) m (mem_all m) e held also

theorem ofExtension?_eq (s : String) :
    ofExtension? s = all.find? (·.profile.extensions.contains (plainExtension s)) :=
  rfl

theorem ofExtension?_eq_some_iff : ofExtension? s = some l ↔ plainExtension s ∈ l.profile.extensions := by
  rw [ofExtension?_eq, find?_all_eq_some_iff, List.contains_iff_mem]
  intro l m held also
  rw [List.contains_iff_mem] at held also
  exact eq_of_extension held also

/-- A table from extensions to languages, filled language by language in some order. An entry takes the place
of one that is there already. -/
def extensionTable (order : List Language) : Finmap fun _ : String => Language :=
  order.foldl (fun table l => l.profile.extensions.foldl (fun table e => table.insert e l) table) ∅

theorem lookup_foldl_insert (e : String) (l : Language) (extensions : List String)
    (table : Finmap fun _ : String => Language) :
    (extensions.foldl (fun table e => table.insert e l) table).lookup e =
      if e ∈ extensions then some l else table.lookup e := by
  induction extensions generalizing table with
  | nil => rfl
  | cons first rest ih =>
    rw [List.foldl_cons, ih]
    by_cases same : e = first
    · subst same
      simp
    · simp [same, Finmap.lookup_insert_of_ne]

theorem lookup_extensionTable {e : String} (order : List Language) :
    (extensionTable order).lookup e = some l ↔ l ∈ order ∧ e ∈ l.profile.extensions := by
  induction order using List.reverseRecOn with
  | nil => simp [extensionTable]
  | append_singleton order last ih =>
    rw [extensionTable, List.foldl_append, List.foldl_cons, List.foldl_nil, lookup_foldl_insert, List.mem_append,
      List.mem_singleton]
    split
    · -- The entries of the last language hide no others, for no other language has the extension.
      rename_i held
      constructor
      · rintro ⟨⟩
        exact ⟨Or.inr rfl, held⟩
      · rintro ⟨-, also⟩
        rw [eq_of_extension held also]
    · rename_i unheld
      rw [← extensionTable, ih]
      constructor
      · rintro ⟨member, held⟩
        exact ⟨Or.inl member, held⟩
      · rintro ⟨member | rfl, held⟩
        · exact ⟨member, held⟩
        · exact absurd held unheld

/-! ### Names -/

theorem ofName?_eq (s : String) : ofName? s = all.find? (·.names.contains (Text.trim (Text.lowerAscii s))) := by
  rw [← Text.lowerAscii_trim, ofName?]

theorem toOption_ofName (s : String) : (ofName s).toOption = ofName? s := by
  unfold ofName
  split <;> simp_all [Except.toOption]

theorem mem_names_of_ofName (named : ofName s = .ok l) : Text.trim (Text.lowerAscii s) ∈ l.names := by
  have found : ofName? s = some l := by
    rw [← toOption_ofName, named]
    rfl
  rw [ofName?_eq] at found
  have listed := List.find?_some found
  rwa [List.contains_iff_mem] at listed

theorem ofName?_pad {before t after : String} (blankBefore : Text.Blank before) (recased : Text.Recased s t)
    (blankAfter : Text.Blank after) : ofName? (before ++ t ++ after) = ofName? s := by
  rw [ofName?, Text.trim_pad t blankBefore blankAfter, Text.lowerAscii_trim, ← recased.lowerAscii_eq, ofName?_eq]

/-- No name starts with a dot, and no extension holds a blank. So a text that is both is read alike. -/
theorem trim_eq_plainExtension (named : Text.trim (Text.lowerAscii s) ∈ l.names)
    (held : plainExtension s ∈ m.profile.extensions) : Text.trim (Text.lowerAscii s) = plainExtension s := by
  have dotless : ∀ l ∈ all, ∀ name ∈ l.names, name.toList.head? ≠ some '.' := by decide +kernel
  have solid : ∀ m ∈ all, ∀ e ∈ m.profile.extensions, e.toList.any Text.isBlank = false := by decide +kernel
  have undotted : plainExtension s = Text.lowerAscii s := by
    rw [plainExtension_eq]
    cases shape : (Text.lowerAscii s).toList with
    | nil => rw [← String.ofList_toList (s := Text.lowerAscii s), shape]; rfl
    | cons c cs =>
      have other : c ≠ '.' := by
        rintro rfl
        have first := dotless l (mem_all l) _ named
        rw [Text.trim, String.toList_ofList, shape] at first
        exact first (Text.head?_trimChars_cons (by decide) cs)
      rw [List.dropWhile_cons_of_neg (by simpa using other), ← shape, String.ofList_toList]
  rw [undotted] at held ⊢
  have unblank : ∀ c ∈ (Text.lowerAscii s).toList, Text.isBlank c = false := by
    simpa using List.any_eq_false.mp (solid m (mem_all m) _ held)
  rw [Text.trim, Text.trimChars_eq_self (fun c first => unblank c (List.mem_of_mem_head? first))
    (fun c last => unblank c (List.mem_of_getLast? last)), String.ofList_toList]

theorem eq_of_name_of_extension (named : ofName s = .ok l) (held : ofExtension? s = some m) : l = m := by
  have single : ∀ l ∈ all, ∀ m ∈ all, ∀ name ∈ l.names, name ∈ m.profile.extensions → l = m := by decide +kernel
  have listed := mem_names_of_ofName named
  have extension := ofExtension?_eq_some_iff.mp held
  rw [trim_eq_plainExtension listed extension] at listed
  exact single l (mem_all l) m (mem_all m) _ listed extension

/-- What a text stands for, as an extension and as a name. Dots before an extension and the case of its letters do
not matter, and it stands for the one language that lists it in lower case and without the dots; a table of all
extensions gives that language whatever the order in which it was filled. Blanks around a name and the case of its
letters do not matter. A text that is both a name and an extension stands for one language. -/
theorem resolution_consistent (s : String) :
    (∀ n t, Text.Recased s t → ofExtension? (String.ofList (List.replicate n '.') ++ t) = ofExtension? s) ∧
    (∀ l, ofExtension? s = some l ↔ plainExtension s ∈ l.profile.extensions) ∧
    (∀ order, order.Perm all → (extensionTable order).lookup (plainExtension s) = ofExtension? s) ∧
    (∀ before t after, Text.Blank before → Text.Recased s t → Text.Blank after →
      (ofName (before ++ t ++ after)).toOption = (ofName s).toOption) ∧
    ∀ l m, ofName s = .ok l → ofExtension? s = some m → l = m := by
  refine ⟨fun n t recased => ?_, fun l => ofExtension?_eq_some_iff, fun order perm => ?_,
    fun before t after blankBefore recased blankAfter => ?_, fun l m => eq_of_name_of_extension⟩
  · have same : plainExtension t = plainExtension s := by
      rw [plainExtension_eq, ← recased.lowerAscii_eq, plainExtension_eq]
    rw [ofExtension?_eq, plainExtension_dots, same, ofExtension?_eq]
  · apply Option.ext
    intro l
    rw [lookup_extensionTable, ofExtension?_eq_some_iff]
    exact and_iff_right (perm.mem_iff.mpr (mem_all l))
  · rw [toOption_ofName, toOption_ofName, ofName?_pad blankBefore recased blankAfter]

theorem jsx_resolved :
    ofExtension? "..jSX" = some .javaScript ∧ (extensionTable all.reverse).lookup "jsx" = some .javaScript ∧
      (ofName "\u2003Jsx\n").toOption = some .javaScript ∧ ofName "jsx" = .ok .javaScript := by
  obtain ⟨extension, listed, table, name, same⟩ := resolution_consistent "jsx"
  have known : ofExtension? "jsx" = some .javaScript := (listed .javaScript).mpr (by decide +kernel)
  obtain ⟨l, named⟩ : ∃ l, ofName "jsx" = .ok l := ⟨.javaScript, by decide +kernel⟩
  obtain rfl := same l .javaScript named known
  refine ⟨?_, ?_, ?_, named⟩
  · rw [← known]
    exact extension 2 "jSX" (by decide)
  · rw [← known]
    exact table all.reverse (List.reverse_perm _)
  · have padded := name "\u2003" "Jsx" "\n" (by decide) (by decide) (by decide)
    rw [named] at padded
    exact padded

end DeclSplit.Language

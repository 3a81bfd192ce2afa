import DeclSplit.Chunk.Encoding
import DeclSplit.Proofs.Json

/-!
Chunks written as values and read again. Much is read that is never written: other members, members that
are missing or null, arrays in the place of objects. But each chunk is written in one form only, the
canonical one; from it the chunk is read again, and a canonical value that can be read is the written form of
what it stands for.
-/

namespace DeclSplit

/-! ### Languages -/

theorem Language.ofId?_eq_some_iff {s : String} {l : Language} : ofId? s = some l ↔ s = l.id := by
  constructor
  · intro found
    unfold ofId? at found
    have same := List.find?_some found
    exact (eq_of_beq same).symm
  · rintro rfl
    cases l <;> decide

theorem Language.ofJson?_eq_some_iff {j : Json} {l : Language} :
    ofJson? j = some l ↔ j = .str l.id ∨ j = .obj [(l.id, .null)] := by
  unfold ofJson?
  split
  · simp [ofId?_eq_some_iff]
  · simp [ofId?_eq_some_iff]
  · rename_i notText notKey
    simp only [reduceCtorEq, false_iff, not_or]
    exact ⟨notText _, notKey _⟩

/-! ### Declarations -/

namespace Declaration

/-- What is read as a declaration: a record with its kind, and with its name, its parents and its docs. No
parents may be missing, and no name or docs missing or null. -/
def ReadFrom (j : Json) (d : Declaration) : Prop :=
  ∃ name parents docs, j.Record memberNames [some (.str d.kind), name, parents, docs] ∧
    Json.HoldsText name d.name ∧ (parents = some (.ofStrings d.parents) ∨ parents = none ∧ d.parents = []) ∧
    Json.HoldsText docs d.docs

theorem ofJson?_eq_some_iff {j : Json} {d : Declaration} : ofJson? j = some d ↔ d.ReadFrom j := by
  unfold ofJson? ReadFrom
  constructor
  · intro read
    obtain ⟨ms, found, read⟩ := Option.bind_eq_some_iff.mp read
    have record := Json.members?_eq_some_iff.mp found
    split at read
    · rename_i kind name parents docs
      simp only [Option.bind_eq_bind, Option.bind_eq_some_iff, Option.pure_def, Option.some.injEq] at read
      obtain ⟨k, readKind, n, readName, p, readParents, t, readDocs, rfl⟩ := read
      obtain ⟨j, rfl, readKind⟩ := Json.required_eq_some_iff.mp readKind
      obtain rfl := Json.string?_eq_some_iff.mp readKind
      refine ⟨name, parents, docs, record, ?_, ?_, ?_⟩
      · exact Json.withDefault_optionalString?_iff.mp readName
      · exact Json.withDefault_strings?_iff.mp readParents
      · exact Json.withDefault_optionalString?_iff.mp readDocs
    · cases read
  · rintro ⟨name, parents, docs, record, ofName, ofParents, ofDocs⟩
    rw [Json.members?_eq_some_iff.mpr record]
    simp only [Option.bind_eq_bind, Option.bind_some, Json.required, Json.string?,
      Json.withDefault_optionalString?_iff.mpr ofName, Json.withDefault_strings?_iff.mpr ofParents,
      Json.withDefault_optionalString?_iff.mpr ofDocs]
    rfl

theorem members?_toJson (d : Declaration) :
    d.toJson.members? memberNames =
      some [some (.str d.kind), d.name.map .str, some (.ofStrings d.parents), d.docs.map .str] := by
  obtain ⟨kind, name, parents, docs⟩ := d
  cases name <;> cases docs <;> rfl

theorem ofJson?_toJson (d : Declaration) : ofJson? d.toJson = some d := by
  rw [ofJson?_eq_some_iff]
  exact ⟨_, _, _, Json.members?_eq_some_iff.mp d.members?_toJson, Json.holdsText_map _, Or.inl rfl,
    Json.holdsText_map _⟩

/-- The form in which declarations are written: an object with nothing but the members of a declaration, in
order, where the list of parents is never left out and nothing is null. -/
def Canonical (j : Json) : Prop :=
  ∃ members, j = .obj members ∧ Json.Tidy memberNames members ∧ "parent" ∈ members.map (·.1)

theorem canonical_toJson (d : Declaration) : Canonical d.toJson := by
  obtain ⟨kind, name, parents, docs⟩ := d
  refine ⟨_, rfl, ⟨?_, ?_⟩, ?_⟩
  · cases name <;> cases docs <;> exact List.isSublist_iff_sublist.mp rfl
  · cases name <;> cases docs <;> simp [Json.ofStrings]
  · simp

/-- A canonical value is what its declaration is written as. -/
theorem eq_toJson_of_canonical {j : Json} {d : Declaration} (canonical : Canonical j) (read : ofJson? j = some d) :
    j = d.toJson := by
  obtain ⟨members, rfl, tidy, hasParents⟩ := canonical
  obtain ⟨name, parents, docs, record, ofName, ofParents, ofDocs⟩ := ofJson?_eq_some_iff.mp read
  have found := Json.members?_eq_some_iff.mpr record
  simp only [Json.members?, memberNames, List.map_cons, List.map_nil, Option.some.injEq, List.cons.injEq,
    and_true] at found
  obtain ⟨kindAt, rfl, rfl, rfl⟩ := found
  have nameAt := ofName.eq_map (tidy.lookup_ne_null _)
  have docsAt := ofDocs.eq_map (tidy.lookup_ne_null _)
  have parentsAt : members.lookup "parent" = some (.ofStrings d.parents) := by
    rcases ofParents with found | ⟨missing, -⟩
    · exact found
    · obtain ⟨m, member, isParent⟩ := List.mem_map.mp hasParents
      have differs := List.lookup_eq_none_iff.mp missing m member
      simp [isParent] at differs
  rw [Json.eq_filterMap_lookup (by decide) tidy.keys]
  simp only [memberNames, List.filterMap_cons, List.filterMap_nil, kindAt, nameAt, parentsAt, docsAt]
  obtain ⟨kind, name, parents, docs⟩ := d
  cases name <;> cases docs <;> rfl

end Declaration

/-! ### Chunks -/

namespace Chunk

/-- The numbers of a chunk fit into 64 bits. -/
structure InWords (c : Chunk) : Prop where
  startOffset : c.startOffset < Text.wordLimit
  endOffset : c.endOffset < Text.wordLimit
  startLine : c.startLine < Text.wordLimit
  endLine : c.endLine < Text.wordLimit

/-- What is read as a chunk: a record with its content, its range and its lines, with a language by its
identifier or by an object with this for its only key, with a declaration, and with a path that may be
missing or null if there is none. -/
def ReadFrom (j : Json) (c : Chunk) : Prop :=
  ∃ language declaration filePath,
    j.Record memberNames [some (.str c.content), some (.ofNat c.startOffset), some (.ofNat c.endOffset),
      some (.ofNat c.startLine), some (.ofNat c.endLine), some language, some declaration, filePath] ∧
    c.InWords ∧ (language = .str c.language.id ∨ language = .obj [(c.language.id, .null)]) ∧
    c.declaration.ReadFrom declaration ∧ Json.HoldsText filePath c.filePath

theorem ofJson?_eq_some_iff {j : Json} {c : Chunk} : ofJson? j = some c ↔ c.ReadFrom j := by
  unfold ofJson? ReadFrom
  constructor
  · intro read
    obtain ⟨ms, found, read⟩ := Option.bind_eq_some_iff.mp read
    have record := Json.members?_eq_some_iff.mp found
    split at read
    · simp only [Option.bind_eq_bind, Option.bind_eq_some_iff, Option.pure_def, Option.some.injEq,
        Json.required_eq_some_iff, Json.string?_eq_some_iff, Json.word?_eq_some_iff,
        Language.ofJson?_eq_some_iff, Declaration.ofJson?_eq_some_iff,
        Json.withDefault_optionalString?_iff] at read
      obtain ⟨content, ⟨_, rfl, rfl⟩, startOffset, ⟨_, rfl, rfl, startFits⟩, endOffset,
        ⟨_, rfl, rfl, endFits⟩, startLine, ⟨_, rfl, rfl, startLineFits⟩, endLine,
        ⟨_, rfl, rfl, endLineFits⟩, l, ⟨language, rfl, ofLanguage⟩, d, ⟨declaration, rfl, ofDeclaration⟩,
        path, ofPath, rfl⟩ := read
      exact ⟨language, declaration, _, record, ⟨startFits, endFits, startLineFits, endLineFits⟩, ofLanguage,
        ofDeclaration, ofPath⟩
    · cases read
  · rintro ⟨language, declaration, filePath, record, words, ofLanguage, ofDeclaration, ofPath⟩
    rw [Json.members?_eq_some_iff.mpr record]
    simp only [Option.bind_eq_bind, Option.bind_some, Json.required, Json.string?,
      Json.word?_eq_some_iff.mpr ⟨rfl, words.startOffset⟩, Json.word?_eq_some_iff.mpr ⟨rfl, words.endOffset⟩,
      Json.word?_eq_some_iff.mpr ⟨rfl, words.startLine⟩, Json.word?_eq_some_iff.mpr ⟨rfl, words.endLine⟩,
      Language.ofJson?_eq_some_iff.mpr ofLanguage, Declaration.ofJson?_eq_some_iff.mpr ofDeclaration,
      Json.withDefault_optionalString?_iff.mpr ofPath]
    rfl

theorem members?_toJson (c : Chunk) :
    c.toJson.members? memberNames =
      some [some (.str c.content), some (.ofNat c.startOffset), some (.ofNat c.endOffset),
        some (.ofNat c.startLine), some (.ofNat c.endLine), some (.str c.language.id),
        some c.declaration.toJson, c.filePath.map .str] := by
  obtain ⟨content, startOffset, endOffset, startLine, endLine, language, declaration, filePath⟩ := c
  cases filePath <;> rfl

theorem ofJson?_toJson {c : Chunk} (words : c.InWords) : ofJson? c.toJson = some c := by
  rw [ofJson?_eq_some_iff]
  exact ⟨_, _, _, Json.members?_eq_some_iff.mp c.members?_toJson, words, Or.inl rfl,
    Declaration.ofJson?_eq_some_iff.mp c.declaration.ofJson?_toJson, Json.holdsText_map _⟩

theorem inWords_of_ofJson? {j : Json} {c : Chunk} (read : ofJson? j = some c) : c.InWords := by
  obtain ⟨_, _, _, -, words, -⟩ := ofJson?_eq_some_iff.mp read
  exact words

/-- The form in which chunks are written: an object with nothing but the members of a chunk, in order, where
nothing is null, the language is a text and the declaration is in the form for declarations. -/
def Canonical (j : Json) : Prop :=
  ∃ members, j = .obj members ∧ Json.Tidy memberNames members ∧
    (∃ text, members.lookup "language" = some (.str text)) ∧
    ∃ declaration, members.lookup "boundary" = some declaration ∧ Declaration.Canonical declaration

theorem canonical_toJson (c : Chunk) : Canonical c.toJson := by
  have declared := c.declaration.canonical_toJson
  obtain ⟨content, startOffset, endOffset, startLine, endLine, language, declaration, filePath⟩ := c
  refine ⟨_, rfl, ⟨?_, ?_⟩, ⟨language.id, ?_⟩, declaration.toJson, ?_, declared⟩
  · cases filePath <;> exact List.isSublist_iff_sublist.mp rfl
  · cases filePath <;> simp [Json.ofNat, Language.toJson, Declaration.toJson]
  · cases filePath <;> rfl
  · cases filePath <;> rfl

/-- A canonical value is what its chunk is written as. -/
theorem eq_toJson_of_canonical {j : Json} {c : Chunk} (canonical : Canonical j) (read : ofJson? j = some c) :
    j = c.toJson := by
  obtain ⟨members, rfl, tidy, ⟨text, languageAt⟩, declaration, declarationAt, declared⟩ := canonical
  obtain ⟨language, declaration', filePath, record, -, ofLanguage, ofDeclaration, ofPath⟩ :=
    ofJson?_eq_some_iff.mp read
  have found := Json.members?_eq_some_iff.mpr record
  simp only [Json.members?, memberNames, List.map_cons, List.map_nil, Option.some.injEq, List.cons.injEq,
    and_true, languageAt, declarationAt] at found
  obtain ⟨contentAt, startOffsetAt, endOffsetAt, startLineAt, endLineAt, rfl, rfl, rfl⟩ := found
  have pathAt := ofPath.eq_map (tidy.lookup_ne_null _)
  obtain rfl : text = c.language.id := by simpa using ofLanguage
  obtain rfl := Declaration.eq_toJson_of_canonical declared (Declaration.ofJson?_eq_some_iff.mpr ofDeclaration)
  rw [Json.eq_filterMap_lookup (by decide) tidy.keys]
  simp only [memberNames, List.filterMap_cons, List.filterMap_nil, contentAt, startOffsetAt, endOffsetAt,
    startLineAt, endLineAt, languageAt, declarationAt, pathAt]
  obtain ⟨content, startOffset, endOffset, startLine, endLine, language, declaration, filePath⟩ := c
  cases filePath <;> rfl

/-- A chunk whose numbers fit into 64 bits is read again from what it is written as. Whatever value it is
read from, it is written canonically and so that it is read again, and only a canonical value is left as
it is. The values that it is read from are those of `ReadFrom`. -/
theorem written_form_is_canonical (c : Chunk) :
    (c.InWords → ofJson? c.toJson = some c) ∧
    (∀ j, ofJson? j = some c →
      Canonical c.toJson ∧ ofJson? c.toJson = some c ∧ (c.toJson = j ↔ Canonical j)) ∧
    ∀ j, ofJson? j = some c ↔ c.ReadFrom j := by
  refine ⟨ofJson?_toJson, fun j read => ⟨c.canonical_toJson, ?_, ?_⟩, fun j => ofJson?_eq_some_iff⟩
  · exact ofJson?_toJson (inWords_of_ofJson? read)
  · constructor
    · rintro rfl
      exact c.canonical_toJson
    · intro canonical
      exact (eq_toJson_of_canonical canonical read).symm

/-- A function of Rust as an array without a path, the language as an object and the declaration as an array
of its kind alone. -/
def terse : Json :=
  .arr [.str "fn a() \x7b\x7d", .ofNat 0, .ofNat 9, .ofNat 1, .ofNat 1, .obj [("rust", .null)],
    .arr [.str "function_item"]]

theorem terse_written_canonically : ∃ c, ofJson? terse = some c ∧ c.declaration.parents = [] ∧
    Canonical c.toJson ∧ ofJson? c.toJson = some c ∧ ¬Canonical terse := by
  have read : ofJson? terse =
      some ⟨"fn a() \x7b\x7d", 0, 9, 1, 1, .rust, ⟨"function_item", none, [], none⟩, none⟩ := by
    rfl
  obtain ⟨-, reads, -⟩ := written_form_is_canonical
    ⟨"fn a() \x7b\x7d", 0, 9, 1, 1, .rust, ⟨"function_item", none, [], none⟩, none⟩
  obtain ⟨canonical, again, kept⟩ := reads terse read
  refine ⟨_, read, rfl, canonical, again, fun canonicalBefore => ?_⟩
  cases kept.mpr canonicalBefore

end Chunk

end DeclSplit

import DeclSplit.Proofs.Chunk
import DeclSplit.Proofs.Documentation.Run

/-!
Chunks and their documentation. A chunk with comments above its declaration starts at the topmost of them
and reads them one after the other down to the declaration, with what stands between them in the source. A
chunk whose documentation is a string in the declaration is the declaration alone, and so is one without
documentation.
-/

namespace DeclSplit

open Cursor Documentation

namespace Node

/-- A text that reads some nodes one after the other: it has the text of each, and between two of them what
the source has between their bytes. -/
inductive Reads (source : String) : List Node → String → Prop where
  | last (n : Node) : Reads source [n] (n.text source)
  | next {n m : Node} {rest : List Node} {gap text : String} (ordered : n.span.endByte ≤ m.span.startByte)
      (between : gap.toByteArray = source.toByteArray.extract n.span.endByte m.span.startByte)
      (reads : Reads source (m :: rest) text) : Reads source (n :: m :: rest) (n.text source ++ gap ++ text)

/-- The source from the start of the first to the end of the last of some nodes reads all of them. -/
theorem reads_slice {source : String} {nodes : List Node} {first last : Node} (starts : nodes.head? = some first)
    (ends : nodes.getLast? = some last)
    (fits : ∀ n ∈ nodes, n.Fits source ∧ n.span.startByte ≤ n.span.endByte)
    (apart : nodes.Pairwise fun a b => a.span.endByte ≤ b.span.startByte) :
    first.span.startByte ≤ last.span.endByte ∧
      Reads source nodes (Text.slice source first.span.startByte last.span.endByte) := by
  induction nodes generalizing first with
  | nil => cases starts
  | cons n rest ih =>
    obtain rfl : n = first := by simpa using starts
    obtain ⟨own, ordered⟩ := fits n List.mem_cons_self
    cases rest with
    | nil =>
      obtain rfl : n = last := by simpa using ends
      exact ⟨ordered, .last n⟩
    | cons m rest =>
      obtain ⟨next, -⟩ := fits m (List.mem_cons_of_mem _ List.mem_cons_self)
      obtain ⟨final, -⟩ := fits last (List.mem_of_getLast? ends)
      obtain ⟨before, later⟩ := List.pairwise_cons.mp apart
      have between := before m List.mem_cons_self
      obtain ⟨inside, reads⟩ := ih rfl (by simpa using ends)
        (fun k member => fits k (List.mem_cons_of_mem _ member)) later
      -- The text of the first node and the gap after it go before what the rest reads.
      have whole : n.text source ++ Text.slice source n.span.endByte m.span.startByte ++
          Text.slice source m.span.startByte last.span.endByte =
            Text.slice source n.span.startByte last.span.endByte := by
        rw [text, Text.slice_append_slice own.starts own.ends next.starts ordered between]
        exact Text.slice_append_slice own.starts next.starts final.ends (Nat.le_trans ordered between) inside
      refine ⟨by omega, ?_⟩
      rw [← whole]
      exact .next between (Text.toByteArray_slice own.ends next.starts between) reads

end Node

namespace Survey
variable {s : Survey} {root : Node} {d : Cursor}

/-- The comments of a declaration from top to bottom and the declaration lie one after the other. -/
theorem pairwise_comments (nested : root.Nested) (hd : Below (.ofRoot root) d) :
    ((comments s.language d).reverse ++ [d]).Pairwise fun a b => a.node.span.endByte ≤ b.node.span.startByte := by
  have apart := (nested.siblings_apart (hd.above (anchor_mem_lineage d))).2
  rw [List.pairwise_append, List.pairwise_reverse]
  refine ⟨apart.sublist (comments_isPrefix s.language d).sublist, List.pairwise_singleton _ _, ?_⟩
  intro comment member b own
  rw [List.mem_singleton.mp own]
  exact (comment_end_le nested hd (List.mem_reverse.mp member)).2

theorem below_of_mem_comments (hd : Below (.ofRoot root) d) {a : Cursor}
    (member : a ∈ (comments s.language d).reverse ++ [d]) : Below (.ofRoot root) a := by
  rcases List.mem_append.mp member with comment | own
  · exact below_comment hd (List.mem_reverse.mp comment)
  · rw [List.mem_singleton.mp own]
    exact hd

/-- The source from where the range of a declaration starts reads its comments and the declaration. -/
theorem reads_comments (wellFormed : root.WellFormed s.source) (hd : Below (.ofRoot root) d) :
    Node.Reads s.source (((comments s.language d).map (·.node)).reverse ++ [d.node])
      (Text.slice s.source (s.firstByte d) d.node.span.endByte) := by
  obtain ⟨nested, fits⟩ := wellFormed
  have nodes : ((comments s.language d).map (·.node)).reverse ++ [d.node] =
      ((comments s.language d).reverse ++ [d]).map (·.node) := by simp
  have starts : (((comments s.language d).reverse ++ [d]).map (·.node)).head? = some (s.top d).node := by
    simp only [List.head?_map, List.head?_append, List.head?_reverse, List.head?_cons, top, Option.or_some,
      Option.map_some]
  rw [nodes]
  refine (Node.reads_slice starts (by simp) ?_ ?_).2
  · intro n member
    obtain ⟨a, place, rfl⟩ := List.mem_map.mp member
    have ha := below_of_mem_comments hd place
    exact ⟨fits a (mem_preorder_iff.mpr ha), (nested.laidOut ha).ordered⟩
  · exact List.pairwise_map.mpr (pairwise_comments nested hd)

theorem comments_of_find?_none (absent : find? s.language s.source d = none) : comments s.language d = [] := by
  have leading := find?_leading s.language s.source d
  rw [absent] at leading
  exact List.getLast?_eq_none_iff.mp (Option.map_eq_none_iff.mp leading.symm)

end Survey

/-! ### Strings in declarations -/

/-- A string that documents a declaration is a node below it. -/
theorem Documentation.docstring_below {source : String} {d : Cursor} {docs : Documentation}
    (found : docstring source d.node = some docs) :
    ∃ literal, Below d literal ∧ literal.node.kind = "string" ∧ docs = ⟨literal.node.text source, none⟩ := by
  simp only [docstring, Option.bind_eq_bind, Option.bind_eq_some_iff] at found
  obtain ⟨body, ofBody, statement, ofStatement, found⟩ := found
  split at found
  · split at found
    · rename_i literal shape
      split at found
      · rename_i isString
        obtain ⟨b, childB, rfl⟩ := exists_childOf (Node.mem_children_of_field? ofBody)
        obtain ⟨st, childSt, rfl⟩ := exists_childOf (Node.mem_children_of_namedChild? ofStatement)
        have member : literal ∈ st.node.namedChildren := by
          rw [shape]
          exact List.mem_cons_self
        obtain ⟨l, childL, rfl⟩ := exists_childOf (List.mem_filter.mp member).1
        refine ⟨l, .head childB (.head childSt (.single childL)), isString, ?_⟩
        exact (Option.some.inj found).symm
      · cases found
    · cases found
  · cases found

/-- The text of a node holds the texts of the nodes below it. -/
theorem Node.WellFormed.text_below {source : String} {root : Node} (wellFormed : root.WellFormed source)
    {a b : Cursor} (ha : Below (.ofRoot root) a) (h : Below a b) :
    ∃ before after, a.node.text source = before ++ b.node.text source ++ after := by
  obtain ⟨nested, fits⟩ := wellFormed
  obtain ⟨starts, ends⟩ := nested.span_below ha h
  have ordered := (nested.laidOut (ha.trans h)).ordered
  have outer := fits a (mem_preorder_iff.mpr ha)
  have inner := fits b (mem_preorder_iff.mpr (ha.trans h))
  refine ⟨Text.slice source a.node.span.startByte b.node.span.startByte,
    Text.slice source b.node.span.endByte a.node.span.endByte, ?_⟩
  rw [text, text, Text.slice_append_slice outer.starts inner.starts inner.ends starts ordered]
  exact (Text.slice_append_slice outer.starts inner.ends outer.ends (Nat.le_trans starts ordered) ends).symm

namespace Chunk

/-- A chunk that starts with a run of comments, nearest first, above a node: it goes from the topmost of them
to the end of the node and reads them all on the way, and its documentation has their lines in that order. -/
structure StartsWith (source : String) (run : List Node) (n : Node) (docs : String) (k : Chunk) : Prop where
  start : ∃ top, run.getLast? = some top ∧ k.startOffset = top.span.startByte
  content : Node.Reads source (run.reverse ++ [n]) k.content
  lines : ∃ lines, List.Forall₂ (fun comment line => Text.IsLineOf (comment.text source) line) run.reverse lines ∧
    docs = "\n".intercalate lines

/-- How a chunk of the node at `d` holds its documentation, by the way in which the language attaches it. -/
structure HoldsDocs (language : Language) (source : String) (d : Cursor) (k : Chunk) : Prop where
  found : k.declaration.docs = ((find? language source d).map (·.text)).filter (· ≠ "")
  above : DocFamily.ofLanguage language = .adjacentComments → ∀ docs, k.declaration.docs = some docs →
    ∃ n, IsLongestRun (anchor d).preceding n ∧ k.StartsWith source ((anchor d).preceding.take n) d.node docs
  within : DocFamily.ofLanguage language = .docstring →
    k.startOffset = d.node.span.startByte ∧ k.content = d.node.text source ∧
      ∀ docs, k.declaration.docs = some docs →
        ∃ literal, Below d literal ∧ literal.node.kind = "string" ∧ docs = literal.node.text source ∧
          ∃ before after, k.content = before ++ docs ++ after
  unsupported : DocFamily.ofLanguage language = .unsupported →
    k.startOffset = d.node.span.startByte ∧ k.declaration.docs = none
  absent : find? language source d = none →
    k.startOffset = d.node.span.startByte ∧ k.declaration.docs = none

end Chunk

namespace Survey
variable {s : Survey} {root : Node} {d : Cursor} {filePath : Option String} {parents : List String}

/-- The chunk of the declaration at a cursor, below declarations of the given names. -/
def cutOut (s : Survey) (filePath : Option String) (parents : List String) (d : Cursor) : Chunk :=
  Chunk.ofBoundary s.source s.language filePath (s.record d parents)

theorem cutOut_startOffset : (s.cutOut filePath parents d).startOffset = s.firstByte d :=
  (s.record_start d parents).1

theorem cutOut_content :
    (s.cutOut filePath parents d).content = Text.slice s.source (s.firstByte d) d.node.span.endByte := by
  have starts : (s.cutOut filePath parents d).startOffset = s.firstByte d := cutOut_startOffset
  rw [← starts]
  rfl

/-- A chunk has the documentation that was found for its declaration, unless that has no text. -/
theorem cutOut_docs : (s.cutOut filePath parents d).declaration.docs =
    ((find? s.language s.source d).map (·.text)).filter (· ≠ "") := by
  cases found : find? s.language s.source d with
  | none => simp [cutOut, Chunk.ofBoundary, record, found]
  | some docs =>
    by_cases blank : docs.text = ""
    · simp [cutOut, Chunk.ofBoundary, record, found, blank, Option.filter]
    · simp [cutOut, Chunk.ofBoundary, record, found, blank, Option.filter]

theorem found_of_cutOut_docs {text : String} (stated : (s.cutOut filePath parents d).declaration.docs = some text) :
    ∃ docs, find? s.language s.source d = some docs ∧ docs.text = text := by
  rw [cutOut_docs, Option.filter_eq_some_iff] at stated
  exact Option.map_eq_some_iff.mp stated.1

theorem cutOut_of_no_comments (none : comments s.language d = []) :
    (s.cutOut filePath parents d).startOffset = d.node.span.startByte ∧
      (s.cutOut filePath parents d).content = d.node.text s.source := by
  rw [cutOut_startOffset, cutOut_content, firstByte, top_of_no_comments none]
  exact ⟨rfl, rfl⟩

theorem cutOut_of_find?_none (absent : find? s.language s.source d = none) :
    (s.cutOut filePath parents d).startOffset = d.node.span.startByte ∧
      (s.cutOut filePath parents d).declaration.docs = none := by
  refine ⟨(cutOut_of_no_comments (comments_of_find?_none absent)).1, ?_⟩
  rw [cutOut_docs, absent]
  rfl

theorem cutOut_startsWith (wellFormed : root.WellFormed s.source) (hd : Below (.ofRoot root) d)
    (adjacent : DocFamily.ofLanguage s.language = .adjacentComments) {docs : Documentation}
    (found : find? s.language s.source d = some docs) :
    ∃ n, IsLongestRun (anchor d).preceding n ∧
      (s.cutOut filePath parents d).StartsWith s.source ((anchor d).preceding.take n) d.node docs.text := by
  obtain ⟨n, run, made, nodes⟩ := madeOf_longest_run adjacent found
  obtain ⟨top, last, -⟩ := made.leading
  refine ⟨n, run, ⟨top, last, ?_⟩, ?_, made.text⟩
  · rw [← nodes, List.getLast?_map] at last
    obtain ⟨comment, topmost, rfl⟩ := Option.map_eq_some_iff.mp last
    rw [cutOut_startOffset, firstByte, Survey.top, topmost, Option.getD_some]
  · rw [cutOut_content, ← nodes]
    exact reads_comments wellFormed hd

theorem cutOut_holdsDocs (wellFormed : root.WellFormed s.source) (hd : Below (.ofRoot root) d)
    (filePath : Option String) (parents : List String) :
    (s.cutOut filePath parents d).HoldsDocs s.language s.source d := by
  constructor
  case found => exact cutOut_docs
  case above =>
    intro adjacent text stated
    obtain ⟨docs, found, rfl⟩ := found_of_cutOut_docs stated
    exact cutOut_startsWith wellFormed hd adjacent found
  case within =>
    intro family
    obtain ⟨own, alone⟩ := cutOut_of_no_comments (s := s) (by simp [comments, family])
    refine ⟨own, alone, fun text stated => ?_⟩
    obtain ⟨docs, found, rfl⟩ := found_of_cutOut_docs stated
    rw [find?, family] at found
    obtain ⟨literal, below, isString, rfl⟩ := docstring_below found
    rw [alone]
    exact ⟨literal, below, isString, rfl, wellFormed.text_below hd below⟩
  case unsupported =>
    intro family
    exact cutOut_of_find?_none (by rw [find?, family])
  case absent => exact cutOut_of_find?_none

end Survey

namespace Service

/-- Where parsers make trees that fit their source, each chunk of a source holds its documentation. With
comments above its declaration it starts at the topmost of them and reads them down to the declaration; with
a string in its declaration it is the declaration alone, and the string is a part of it. Where there is no
documentation it starts with the declaration. -/
theorem chunks_hold_documentation (s : Service) (source : String) (language : Language)
    (filePath : Option String) (store : ParserStore) {chunks : List Chunk}
    (wellFormed : ∀ grammar root, s.parse grammar source = some root → root.WellFormed source)
    (cut : (s.chunkFile source language filePath store).1 = .ok chunks) :
    ∃ grammar root, s.parse grammar source = some root ∧
      List.Forall₂ (fun d k => k.HoldsDocs language source d)
        ((Survey.ofLanguage language source s.filter).kept (.ofRoot root)) chunks := by
  obtain ⟨records, extracted, rfl⟩ := chunkFile_eq_ok cut
  obtain ⟨grammar, root, parsed, rfl⟩ := extract_eq_ok extracted
  refine ⟨grammar, root, parsed, ?_⟩
  rw [Survey.boundaries_eq_records, List.map_map, List.forall₂_map_right_iff, List.forall₂_same]
  intro d kept
  have below := Survey.below_of_mem_kept (mem_preorder_iff.mpr .refl) kept
  exact Survey.cutOut_holdsDocs (s := Survey.ofLanguage language source s.filter)
    (wellFormed grammar root parsed) below filePath _

/-- A service whose parsers know `stackedSource` alone. -/
def stacking : Service where
  loader := .bundled
  parse _ source := if source = stackedSource then some stackedTree else none

/-- Both functions are cut out with the comments above them, the second one through the word that exports it. -/
theorem stacking_holds_documentation : stackedTree.WellFormed stackedSource ∧
    ∃ chunks, (stacking.chunkFile stackedSource .javaScript none .empty).1 = .ok chunks ∧
      chunks.map (fun k => (k.content, k.declaration.docs)) =
        [("// b\n// c\nfunction f() \x7b\x7d", some "// b\n// c"),
          ("// d\nexport function g() \x7b\x7d", some "// d")] ∧
      ∃ grammar root, stacking.parse grammar stackedSource = some root ∧
        List.Forall₂ (fun d k => k.HoldsDocs .javaScript stackedSource d)
          ((Survey.ofLanguage .javaScript stackedSource stacking.filter).kept (.ofRoot root)) chunks := by
  have wellFormed : stackedTree.WellFormed stackedSource := by decide +kernel
  have cut : (stacking.chunkFile stackedSource .javaScript none .empty).1 = .ok
      (Chunk.ofBoundaries stackedSource .javaScript none
        ((Survey.ofLanguage .javaScript stackedSource .acceptAll).boundaries (.ofRoot stackedTree))) := by
    rfl
  refine ⟨wellFormed, _, cut, ?_, chunks_hold_documentation stacking stackedSource .javaScript none .empty ?_ cut⟩
  · rw [Survey.boundaries_eq_records]
    decide +kernel
  · intro grammar root parsed
    obtain rfl : stackedTree = root := by simpa [stacking] using parsed
    exact wellFormed

end Service

end DeclSplit

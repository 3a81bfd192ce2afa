import DeclSplit.Proofs.Boundary.Extent
import DeclSplit.Proofs.Text.Slice
import DeclSplit.Service
import Mathlib.Data.List.Forall2

/-!
Chunks against their source. In a tree that fits its source, the range of every declaration starts and
ends between characters, so each chunk holds the bytes of its range, ends with the declaration itself
and counts the lines of the source.
-/

namespace DeclSplit

open Cursor

namespace Chunk

/-- A chunk `k` of a source that was made from the record `b` of the node at `d`. It takes over the
record, holds the source bytes of its range and ends with the text of the node; its lines are those of
its first byte and of the byte after its last. -/
structure Faithful (source : String) (d : Cursor) (b : Boundary) (k : Chunk) : Prop where
  range : k.startOffset = b.startOffset ∧ k.endOffset = b.endOffset
  declaration : k.declaration.kind = b.kind ∧ k.declaration.name = b.name ∧ k.declaration.parents = b.parents
  ordered : k.startOffset ≤ k.endOffset
  starts : Text.IsCut source k.startOffset
  ends : Text.IsCut source k.endOffset
  content : k.content.toByteArray = source.toByteArray.extract k.startOffset k.endOffset
  text : b.text.toByteArray = source.toByteArray.extract d.node.span.startByte d.node.span.endByte
  suffix : ∃ lead, lead ++ b.text = k.content
  startLine : k.startLine = 1 + Text.newlinesBefore source k.startOffset
  endLine : k.endLine = 1 + Text.newlinesBefore source k.endOffset
  lines : k.startLine ≤ k.endLine

theorem faithful_record {s : Survey} {root : Node} {d : Cursor} (wellFormed : root.WellFormed s.source)
    (hd : Below (.ofRoot root) d) (language : Language) (filePath : Option String) (parents : List String) :
    Faithful s.source d (s.record d parents)
      (ofBoundary s.source language filePath (s.record d parents)) := by
  obtain ⟨nested, fits⟩ := wellFormed
  have own := fits d (mem_preorder_iff.mpr hd)
  have top := fits (s.top d) (mem_preorder_iff.mpr (Survey.below_top hd))
  have before := Survey.firstByte_le_start (s := s) nested hd
  have inside := (nested.laidOut hd).ordered
  have ordered := Nat.le_trans before inside
  obtain ⟨startOffset, startLine⟩ := s.record_start d parents
  have lines : (s.record d parents).startLine = 1 + Text.newlinesBefore s.source (s.firstByte d) ∧
      (s.record d parents).endLine = 1 + Text.newlinesBefore s.source d.node.span.endByte := by
    refine ⟨?_, ?_⟩
    · rw [startLine, top.startRow, Nat.add_comm]
      rfl
    · rw [← own.endRow, Nat.add_comm]
      rfl
  have mono := Text.newlinesBefore_mono s.source ordered
  constructor
  case range => exact ⟨rfl, rfl⟩
  case declaration => exact ⟨rfl, rfl, rfl⟩
  case ordered => simpa [ofBoundary, startOffset] using ordered
  case starts => simpa [ofBoundary, startOffset, Survey.firstByte] using top.starts
  case ends => exact own.ends
  case content =>
    simp only [ofBoundary, startOffset, Survey.record_endOffset]
    exact Text.toByteArray_slice top.starts own.ends ordered
  case text => exact Text.toByteArray_slice own.starts own.ends inside
  case suffix =>
    refine ⟨Text.slice s.source (s.firstByte d) d.node.span.startByte, ?_⟩
    simp only [ofBoundary, startOffset, Survey.record_endOffset]
    exact Text.slice_append_slice top.starts own.starts own.ends before inside
  case startLine => simpa [ofBoundary, startOffset] using lines.1
  case endLine => exact lines.2
  case lines =>
    simp only [ofBoundary, lines.1, lines.2]
    omega

end Chunk

namespace Service

theorem tree_eq_ok {s : Service} {source : String} {language : Language}
    {parser : Except ChunkError (Option Parser)} {root : Node} (h : s.tree source language parser = .ok root) :
    ∃ grammar, s.parse grammar source = some root := by
  unfold tree at h
  split at h
  · cases h
  · cases h
  · rename_i parser
    split at h
    · cases h
    · split at h
      · rename_i found
        cases h
        exact ⟨_, found⟩
      · cases h

/-- The declarations of a source are those of the tree that a parser made of it. -/
theorem extract_eq_ok {s : Service} {source : String} {language : Language} {store : ParserStore}
    {records : List Boundary} (h : (s.extract source language store).1 = .ok records) :
    ∃ grammar root, s.parse grammar source = some root ∧
      records = (Survey.ofLanguage language source s.filter).boundaries (.ofRoot root) := by
  unfold extract at h
  generalize store.parser s.loader language = asked at h
  obtain ⟨parser, store⟩ := asked
  simp only at h
  cases made : s.tree source language parser with
  | error e =>
    rw [made] at h
    cases h
  | ok root =>
    rw [made] at h
    obtain ⟨grammar, parsed⟩ := tree_eq_ok made
    cases h
    exact ⟨grammar, root, parsed, rfl⟩

theorem chunkFile_eq_ok {s : Service} {source : String} {language : Language} {filePath : Option String}
    {store : ParserStore} {chunks : List Chunk}
    (h : (s.chunkFile source language filePath store).1 = .ok chunks) :
    ∃ records, (s.extract source language store).1 = .ok records ∧
      chunks = records.map (Chunk.ofBoundary source language filePath) := by
  unfold chunkFile at h
  generalize s.extract source language store = extracted at h ⊢
  obtain ⟨result, store⟩ := extracted
  cases result with
  | error e => cases h
  | ok records =>
    cases h
    exact ⟨records, rfl, rfl⟩

/-- Where parsers make trees that fit their source, the chunks of a source stand for its records one by
one and in order, and each is faithful to the node that was recorded. -/
theorem chunk_faithful (s : Service) (source : String) (language : Language) (store : ParserStore)
    {chunks : List Chunk}
    (wellFormed : ∀ grammar root, s.parse grammar source = some root → root.WellFormed source)
    (cut : (s.chunk source language store).1 = .ok chunks) :
    ∃ grammar root records, s.parse grammar source = some root ∧
      (s.extract source language store).1 = .ok records ∧
      List.Forall₂ (fun b k => ∃ d ∈ (Survey.ofLanguage language source s.filter).kept (.ofRoot root),
        Chunk.Faithful source d b k) records chunks := by
  obtain ⟨records, extracted, rfl⟩ := chunkFile_eq_ok cut
  obtain ⟨grammar, root, parsed, rfl⟩ := extract_eq_ok extracted
  refine ⟨grammar, root, _, parsed, extracted, ?_⟩
  rw [List.forall₂_map_right_iff, List.forall₂_same]
  intro b member
  rw [Survey.boundaries_eq_records] at member
  obtain ⟨d, kept, rfl⟩ := List.mem_map.mp member
  have below := Survey.below_of_mem_kept (mem_preorder_iff.mpr .refl) kept
  exact ⟨d, kept, Chunk.faithful_record (s := Survey.ofLanguage language source s.filter)
    (wellFormed grammar root parsed) below language none _⟩

/-- A service whose parsers know `decoratedSource` alone. -/
def decorating : Service where
  loader := .bundled
  parse _ source := if source = decoratedSource then some decoratedTree else none

theorem decorating_faithful : decoratedTree.WellFormed decoratedSource ∧
    ∃ chunks, (decorating.chunk decoratedSource .javaScript .empty).1 = .ok chunks ∧
      ∃ grammar root records, decorating.parse grammar decoratedSource = some root ∧
        (decorating.extract decoratedSource .javaScript .empty).1 = .ok records ∧
        List.Forall₂ (fun b k =>
          ∃ d ∈ (Survey.ofLanguage .javaScript decoratedSource decorating.filter).kept (.ofRoot root),
            Chunk.Faithful decoratedSource d b k) records chunks := by
  have cut : (decorating.chunk decoratedSource .javaScript .empty).1 = .ok
      (Chunk.ofBoundaries decoratedSource .javaScript none
        ((Survey.ofLanguage .javaScript decoratedSource .acceptAll).boundaries (.ofRoot decoratedTree))) := by
    rfl
  refine ⟨decorated_wellFormed, _, cut, chunk_faithful decorating decoratedSource .javaScript .empty ?_ cut⟩
  intro grammar root parsed
  obtain rfl : decoratedTree = root := by simpa [decorating] using parsed
  exact decorated_wellFormed

end Service

end DeclSplit

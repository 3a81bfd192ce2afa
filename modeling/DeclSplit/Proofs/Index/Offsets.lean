import DeclSplit.Index
import DeclSplit.Proofs.Chunk
import DeclSplit.Proofs.Text.Encoding

/-!
The offsets of chunks as offsets into files. Chunks are cut out of the text that a file holds, and the
bytes of a file in UTF-8 are those of its text, behind the mark if there is one. So offsets lead to the
same bytes in the file, after the mark has been passed over, and lines are those of the file.
-/

namespace DeclSplit

/-- A chunk stands in a file, `shift` bytes further on than in the text: the bytes there are those of the
chunk, and its lines are counted by the line feeds of the file. -/
structure Chunk.StandsIn (file : ByteArray) (shift : Nat) (k : Chunk) : Prop where
  ordered : k.startOffset ≤ k.endOffset
  inside : k.endOffset + shift ≤ file.size
  content : file.extract (k.startOffset + shift) (k.endOffset + shift) = k.content.toUTF8
  startLine : k.startLine = 1 + (file.data.toList.take (k.startOffset + shift)).count 0x0A
  endLine : k.endLine = 1 + (file.data.toList.take (k.endOffset + shift)).count 0x0A

/-- A chunk that is faithful to a text stands in every file that has the text behind other bytes, as long
as these hold no line feeds. -/
theorem Chunk.Faithful.standsIn {source : String} {d : Cursor} {b : Boundary} {k : Chunk} {file : ByteArray}
    (faithful : Faithful source d b k) (lead : List UInt8) (split : file.data.toList = lead ++ Text.utf8Bytes source)
    (unbroken : lead.count 0x0A = 0) : k.StandsIn file lead.length := by
  have size : file.size = lead.length + source.utf8ByteSize := by
    rw [← ByteArray.size_data, ← Array.length_toList, split, List.length_append]
    rfl
  have newlines (offset : Nat) : (file.data.toList.take (offset + lead.length)).count 0x0A =
      Text.newlinesBefore source offset := by
    rw [split, Nat.add_comm, List.take_length_add_append, List.count_append, unbroken, Nat.zero_add]
    rfl
  have whole : file = lead.toByteArray ++ source.toByteArray := by
    apply ByteArray.ext
    apply Array.toList_inj.mp
    simpa [Text.utf8Bytes] using split
  constructor
  case ordered => exact faithful.ordered
  case inside =>
    have := faithful.ends.le_size
    omega
  case content =>
    rw [String.toUTF8_eq_toByteArray, faithful.content, whole, Nat.add_comm k.startOffset,
      Nat.add_comm k.endOffset]
    exact ByteArray.extract_append_size_add' List.size_toByteArray.symm
  case startLine => rw [newlines, faithful.startLine]
  case endLine => rw [newlines, faithful.endLine]

theorem Service.faithful_of_mem_chunkFile {s : Service} {source : String} {language : Language}
    {filePath : Option String} {store : ParserStore} {chunks : List Chunk}
    (wellFormed : ∀ grammar root, s.parse grammar source = some root → root.WellFormed source)
    (cut : (s.chunkFile source language filePath store).1 = .ok chunks) {k : Chunk} (member : k ∈ chunks) :
    ∃ d b, Chunk.Faithful source d b k := by
  obtain ⟨records, extracted, rfl⟩ := chunkFile_eq_ok cut
  obtain ⟨grammar, root, parsed, rfl⟩ := extract_eq_ok extracted
  obtain ⟨b, recorded, rfl⟩ := List.mem_map.mp member
  rw [Survey.boundaries_eq_records] at recorded
  obtain ⟨d, kept, rfl⟩ := List.mem_map.mp recorded
  have below := Survey.below_of_mem_kept (Cursor.mem_preorder_iff.mpr .refl) kept
  exact ⟨d, _, Chunk.faithful_record (s := Survey.ofLanguage language source s.filter)
    (wellFormed grammar root parsed) below language filePath _⟩

namespace Indexer
variable {ix : Indexer} {path filePath : String} {store : ParserStore}

theorem text_eq_ok {source : String} (h : ix.text path filePath = .ok source) :
    ∃ file decoded, ix.disk.read path = .ok file ∧ Text.decode file.data.toList = some decoded ∧
      decoded.text = source := by
  unfold text at h
  split at h
  · cases h
  · rename_i entry stands
    split at h
    · cases h
    · split at h
      · cases h
      · rename_i file held
        split at h
        · rename_i decoded read
          cases h
          refine ⟨file, decoded, ?_, read, rfl⟩
          unfold Disk.read
          rw [stands]
          exact held
        · cases h

theorem chunkAs_eq_ok {chunks : List Chunk} (h : (ix.chunkAs path filePath store).1 = .ok chunks) :
    ∃ language source, ix.language path filePath = .ok language ∧ ix.text path filePath = .ok source ∧
      (ix.service.chunkFile source language (some filePath) store).1 = .ok chunks := by
  unfold chunkAs at h
  split at h
  · cases h
  · cases h
  · rename_i language source known held
    refine ⟨language, source, known, held, ?_⟩
    generalize ix.service.chunkFile source language (some filePath) store = result at h ⊢
    obtain ⟨result, store⟩ := result
    cases result with
    | error error => cases h
    | ok chunks =>
      cases h
      rfl

/-- Where a file gives chunks and the tree of its text fits the text, each chunk stands in the file: at its
offsets if the file has no mark, and three bytes further on behind the mark of UTF-8. -/
theorem chunks_stand_in_file (ix : Indexer) (path : String) (store : ParserStore) {chunks : List Chunk}
    (wellFormed : ∀ source grammar root, ix.text path path = .ok source →
      ix.service.parse grammar source = some root → root.WellFormed source)
    (cut : (ix.chunkFile path store).1 = .ok chunks) :
    ∃ file, ix.disk.read path = .ok file ∧ ∀ k ∈ chunks,
      ((∀ encoding : Text.Encoding, ¬encoding.mark <+: file.data.toList) → k.StandsIn file 0) ∧
      ([0xEF, 0xBB, 0xBF] <+: file.data.toList → k.StandsIn file 3) := by
  obtain ⟨language, source, -, held, cut⟩ := chunkAs_eq_ok cut
  obtain ⟨file, decoded, stands, read, rfl⟩ := text_eq_ok held
  refine ⟨file, stands, fun k member => ?_⟩
  obtain ⟨d, b, faithful⟩ := Service.faithful_of_mem_chunkFile
    (fun grammar root => wellFormed _ grammar root held) cut member
  refine ⟨fun unmarked => ?_, fun ⟨rest, behind⟩ => ?_⟩
  · obtain ⟨-, plain, -⟩ :=
      (Text.decode_unmarked_iff (Text.Encoding.ofMark?_eq_none_iff.mpr unmarked)).mp read
    exact faithful.standsIn [] plain rfl
  · have split : file.data.toList = Text.Encoding.utf8.mark ++ rest := behind.symm
    obtain ⟨-, rfl⟩ := (Text.decode_marked_iff split).mp read
    exact faithful.standsIn Text.Encoding.utf8.mark split rfl

/-- A disk with `decoratedSource` behind the mark of UTF-8. -/
def marked : Indexer where
  disk.root := .directory
    [("marked.js", .file ⟨(Text.Encoding.utf8.mark ++ Text.utf8Bytes decoratedSource).toArray⟩)]
  disk.workingDirectory := []
  service := .decorating

theorem marked_entry : marked.disk.entry "marked.js" =
    .ok (.file ⟨(Text.Encoding.utf8.mark ++ Text.utf8Bytes decoratedSource).toArray⟩) := by
  have parts : Text.split '/' "marked.js" = ["marked.js"] := by decide +kernel
  have short : ¬Disk.maxName < "marked.js".utf8ByteSize := by decide +kernel
  unfold Disk.entry Disk.resolve
  rw [if_neg (by decide +kernel), if_neg (by decide +kernel), if_neg (by decide +kernel), parts]
  simp [Disk.follow, marked, Entry.at?, Entry.isDirectory, Entry.child?, Path.isAbsolute, short, Except.map]

theorem marked_text : marked.text "marked.js" "marked.js" = .ok decoratedSource := by
  unfold text
  rw [marked_entry]
  decide +kernel

theorem marked_chunks : (marked.chunkFile "marked.js" .empty).1 = .ok
    (Chunk.ofBoundaries decoratedSource .javaScript (some "marked.js")
      ((Survey.ofLanguage .javaScript decoratedSource .acceptAll).boundaries (.ofRoot decoratedTree))) := by
  have language : marked.language "marked.js" "marked.js" = .ok .javaScript := by
    unfold Indexer.language
    have known : Language.ofPath? "marked.js" = some .javaScript := by decide +kernel
    rw [known]
  unfold chunkFile chunkAs
  rw [language, marked_text]
  rfl

/-- The class and the function of the decorator stand three bytes further on in the file than in its text. -/
theorem marked_stand_in_file : ∃ file chunks, marked.disk.read "marked.js" = .ok file ∧
    (marked.chunkFile "marked.js" .empty).1 = .ok chunks ∧ chunks.length = 2 ∧
    ∀ k ∈ chunks, k.StandsIn file 3 := by
  obtain ⟨file, stands, located⟩ := chunks_stand_in_file marked "marked.js" .empty
    (fun source grammar root held parsed => by
      cases marked_text.symm.trans held
      obtain rfl : decoratedTree = root := by simpa [marked, Service.decorating] using parsed
      exact decorated_wellFormed)
    marked_chunks
  refine ⟨file, _, stands, marked_chunks, by decide +kernel, fun k member => (located k member).2 ?_⟩
  have read : marked.disk.read "marked.js" = .ok _ := congrArg (· >>= Disk.contentOf) marked_entry
  cases read.symm.trans stands
  exact List.prefix_append _ _

end Indexer

end DeclSplit

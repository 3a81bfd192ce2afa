import DeclSplit.Chunk.Encoding
import DeclSplit.Index

/-!
Reports as structured values.
-/
namespace DeclSplit

/-- The value of a failure. -/
def Failure.toJson (failure : Failure) : Json :=
  .obj
    [("path", .str failure.path), ("kind", .str failure.kind.name),
      ("message", .str failure.message)]

/-- The value of a report. -/
def Report.toJson (report : Report) : Json :=
  .obj
    [("files_scanned", .ofNat report.filesScanned), ("files_chunked", .ofNat report.filesChunked),
      ("chunks", .arr (report.chunks.map Chunk.toJson)),
      ("failures", .arr (report.failures.map Failure.toJson))]

end DeclSplit

/-!
The settings of the program, in three sections, with a value for each that is safe to use.
-/
namespace DeclSplit

/-- Which declarations are cut out. -/
structure ChunkingSettings where
  /-- The language of files and names that belong to none; without it they are refused. -/
  defaultLanguage : Option String := none
  /-- The kinds that are kept; all of them if the list is empty. -/
  kinds : List String := []
deriving DecidableEq, Repr

/-- Which files of a directory are read. -/
structure ScanSettings where
  /-- How many files are worked on at a time. -/
  concurrency : Nat := 8
  /-- Whether ignore files are obeyed. -/
  respectIgnore : Bool := true
  /-- Whether hidden entries are visited. -/
  includeHidden : Bool := false
  /-- Whether symbolic links are followed. -/
  followLinks : Bool := false
  /-- The size above which a file is not read. -/
  maxFileBytes : Nat := 2 * 1024 * 1024
deriving DecidableEq, Repr

/-- What is logged. -/
structure LoggingSettings where
  level : String := "info"
  json : Bool := false
deriving DecidableEq, Repr

/-- All settings. -/
structure Settings where
  chunking : ChunkingSettings := {}
  scan : ScanSettings := {}
  logging : LoggingSettings := {}
deriving DecidableEq, Repr

end DeclSplit

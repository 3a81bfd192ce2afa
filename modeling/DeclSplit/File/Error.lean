/-!
Why a file cannot be used.
-/
namespace DeclSplit

/-- A fault met on the way to a file or in reading it. -/
inductive FileError where
  /-- There is nothing at the path. -/
  | notFound
  /-- The path goes on below something that is no directory. -/
  | notADirectory
  /-- A directory cannot be read as a file. -/
  | isADirectory
  /-- The path, or a name in it, is too long. -/
  | nameTooLong
  /-- Symbolic links lead on and on. -/
  | linkLoop
  /-- A path cannot hold the character zero. -/
  | zeroCharacter
  /-- The file was read as text and is none. -/
  | notText
deriving DecidableEq, Repr

/-- The text shown to the user. -/
def FileError.message : FileError → String
  | notFound => "No such file or directory (os error 2)"
  | notADirectory => "Not a directory (os error 20)"
  | isADirectory => "Is a directory (os error 21)"
  | nameTooLong => "File name too long (os error 36)"
  | linkLoop => "Too many levels of symbolic links (os error 40)"
  | zeroCharacter => "file name contained an unexpected NUL byte"
  | notText => "stream did not contain valid UTF-8"

end DeclSplit

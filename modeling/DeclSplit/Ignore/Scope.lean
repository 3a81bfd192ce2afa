import DeclSplit.File.Disk
import DeclSplit.Ignore.Rules

/-!
The ignore files that bear on a directory: its own and those of all directories above it. There are
three in each directory, and rules of the user beside them. A kind of file is asked from the inside
out, and the first directory with a rule on the path answers for its kind.
-/
namespace DeclSplit.Ignore

/-- The rules of the ignore files of one directory. -/
structure DirectoryRules where
  /-- From `.ignore`. -/
  general : List Rule
  /-- From `.gitignore`. -/
  tracked : List Rule
  /-- From `.git/info/exclude`. -/
  excluded : List Rule

/-- The ignore files of the directory at a place. Those that cannot be read hold no rules. -/
def DirectoryRules.load (disk : Disk) (place : List String) : DirectoryRules where
  general := ((disk.readFrom? place [".ignore"]).map rules).getD []
  tracked := ((disk.readFrom? place [".gitignore"]).map rules).getD []
  excluded := ((disk.readFrom? place [".git", "info", "exclude"]).map rules).getD []

/-- The rules of a directory, with the names that lead from it to the directory at hand. -/
structure Frame where
  rules : DirectoryRules
  lead : List String

/-- The bytes of the path that names make up. -/
def pathBytes (names : List String) : List UInt8 :=
  ("/".intercalate names).toUTF8.data.toList

/-- All rules that bear on a directory. -/
structure Scope where
  /-- Whether ignore files are obeyed. -/
  active : Bool
  /-- The rules of the directory and of those above it, the innermost first. -/
  frames : List Frame
  /-- The rules of the user. -/
  user : List Rule
  /-- The names that lead to the directory from where the user's rules start. -/
  userLead : List String

namespace Scope

/-- No rules at all. -/
def inactive : Scope := ⟨false, [], [], []⟩

/-- The rules for the directory at a place. -/
def atPlace (disk : Disk) (place : List String) (user : List Rule) (userLead : List String) : Scope where
  active := true
  frames :=
    (List.range (place.length + 1)).reverse.map fun depth =>
      ⟨.load disk (place.take depth), place.drop depth⟩
  user := user
  userLead := userLead

/-- The rules for a directory inside, of this name and at this place. -/
def enter (s : Scope) (disk : Disk) (name : String) (place : List String) : Scope :=
  if s.active then
    let outer := s.frames.map fun frame => { frame with lead := frame.lead ++ [name] }
    { s with
      frames := ⟨.load disk place, []⟩ :: outer
      userLead := s.userLead ++ [name] }
  else
    s

/-- What the rules of one kind say about an entry of the directory. -/
def verdictOf? (s : Scope) (kind : DirectoryRules → List Rule) (name : String) (isDirectory : Bool) :
    Option Verdict :=
  s.frames.findSome? fun frame =>
    verdict? (kind frame.rules) (pathBytes (frame.lead ++ [name])) isDirectory

/-- What all rules together say about an entry of the directory. -/
def verdict? (s : Scope) (name : String) (isDirectory : Bool) : Option Verdict :=
  s.verdictOf? (·.general) name isDirectory
    <|> s.verdictOf? (·.tracked) name isDirectory
    <|> s.verdictOf? (·.excluded) name isDirectory
    <|> Ignore.verdict? s.user (pathBytes (s.userLead ++ [name])) isDirectory

end Scope

end DeclSplit.Ignore

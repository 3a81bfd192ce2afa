import DeclSplit.Ignore.Rules
import DeclSplit.File.Disk
import DeclSplit.Settings.Home
import DeclSplit.Text.AsciiCase

/-!
The ignore rules of a user, which hold in all directories. They stand in a file that the user's git
configuration names, or else in a file of a fixed name.
-/
namespace DeclSplit.Ignore

/-- The value of a line `excludesfile = value`, without the quotes around it. -/
def excludesLine? (line : List Char) : Option String := do
  let line := Text.trimChars line
  let key := line.takeWhile fun c => c != '=' && !Text.isBlank c
  if Text.lowerAscii (String.ofList key) ≠ "excludesfile" then none
  let '=' :: value := (line.drop key.length).dropWhile Text.isBlank | none
  let value := value.dropWhile Text.isBlank
  let value :=
    match value with
    | '"' :: value => value.dropWhile Text.isBlank
    | value => value
  let value :=
    match value.reverse with
    | '"' :: value => (value.dropWhile Text.isBlank).reverse
    | _ => value
  if value.isEmpty || value.any Text.isBlank then none else some (String.ofList value)

/-- The file of rules that a git configuration names. -/
def excludesFile? (content : ByteArray) : Option String := do
  let text ← String.fromUTF8? content
  (Text.splitChars '\n' text.toList).findSome? excludesLine?

/-- A path with the home directory in place of each tilde. -/
def expandTilde (vars : Variables) (path : String) : String :=
  match vars.home? with
  | none => path
  | some home =>
    String.ofList (path.toList.flatMap fun c => if c = '~' then home.toList else [c])

/-- The directory for settings of other programs. -/
def settingsDirectory? (vars : Variables) : Option String :=
  vars.filled? "XDG_CONFIG_HOME" <|> vars.homeSettings?

/-- The file that holds the rules of the user. -/
def userFile? (disk : Disk) (vars : Variables) : Option String :=
  let named (path : Option String) : Option String := do
    let content ← (disk.read (← path)).toOption
    let file ← excludesFile? content
    return expandTilde vars file
  named (vars.home?.map (Path.join · ".gitconfig"))
    <|> named ((settingsDirectory? vars).map (Path.join · "git/config"))
    <|> (settingsDirectory? vars).map (Path.join · "git/ignore")

/-- The rules of the user. -/
def userRules (disk : Disk) (vars : Variables) : List Rule :=
  match (userFile? disk vars).map disk.read with
  | some (.ok content) => rules content
  | _ => []

end DeclSplit.Ignore

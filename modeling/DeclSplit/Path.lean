import DeclSplit.Text.Blank

/-!
Paths as they are written, with `/` between their components. Repeated separators and components
`.` do not matter, except that a path may start at the root.
-/
namespace DeclSplit.Path

/-- Whether the path starts at the root of the file system. -/
def isAbsolute (path : String) : Bool :=
  path.toList.head? == some '/'

/-- The components that lead somewhere: names and `..`. -/
def components (path : String) : List String :=
  (Text.split '/' path).filter fun part => part != "" && part != "."

/-- Whether the path stands for the standard input, which is no directory and no file. -/
def isStandardInput (path : String) : Bool :=
  path.toList.head? == some '-' && components path == ["-"]

/-- The last component, when it is a name. -/
def fileName? (path : String) : Option String :=
  (components path).getLast?.filter (· != "..")

/-- What follows the last dot of a file name, unless that dot is its first character. -/
def nameExtension? (name : String) : Option String :=
  let after := name.toList.reverse.takeWhile (· != '.')
  let rest := name.toList.reverse.drop after.length
  match rest with
  | [] => none
  | [_] => none
  | _ => some (String.ofList after.reverse)

/-- The extension of the last component. -/
def extension? (path : String) : Option String :=
  (fileName? path).bind nameExtension?

/-- A path that goes on with a name. -/
def join (base name : String) : String :=
  if base = "" ∨ base.toList.getLast? = some '/' then base ++ name else base ++ "/" ++ name

end DeclSplit.Path

import DeclSplit.Index.Error
import DeclSplit.Text.Blank

/-!
How the program reports that it failed: a message and the causes behind it, the nearest first.
-/
namespace DeclSplit

/-- A message and the causes behind it. -/
structure Fault where
  message : String
  causes : List String := []
deriving DecidableEq, Repr

namespace Fault

/-- A text of several lines, all but the first behind a margin. -/
def indent (margin text : String) : String :=
  ("\n" ++ margin).intercalate (Text.split '\n' text)

/-- The causes, numbered from a number on. -/
def numbered (n : Nat) : List String → String
  | [] => ""
  | cause :: rest =>
    let number := n.repr
    let width := String.ofList (List.replicate (5 - number.length) ' ')
    width ++ number ++ ": " ++ indent "       " cause ++ "\n" ++ numbered (n + 1) rest

/-- The text shown to the user. Causes are numbered when there is more than one. -/
def render (fault : Fault) : String :=
  let head := "Error: " ++ fault.message ++ "\n"
  match fault.causes with
  | [] => head
  | [cause] => head ++ "\nCaused by:\n    " ++ indent "    " cause ++ "\n"
  | causes => head ++ "\nCaused by:\n" ++ numbered 0 causes

/-- What is reported of settings, the error itself being the first cause. -/
def settingsCauses (error : SettingsError) : List String :=
  match error with
  | .file detail => [error.message, detail]
  | .malformed => [error.message, "not a document of settings"]
  | _ => [error.message]

/-- What is reported of files and directories. -/
def ofIndexError (error : IndexError) : Fault :=
  match error with
  | .io _ detail => ⟨error.message, [detail]⟩
  | .settings inner => ⟨error.message, (settingsCauses inner).drop 1⟩
  | _ => ⟨error.message, []⟩

end Fault

end DeclSplit

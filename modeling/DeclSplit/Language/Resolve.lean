import DeclSplit.Error
import DeclSplit.Language.Registry
import DeclSplit.Path
import DeclSplit.Text.AsciiCase
import DeclSplit.Text.Blank

/-!
From a name, a file extension or a path to a language.
-/
namespace DeclSplit

namespace Language

/-- The names of a language that are accepted in any case, besides its file extensions. -/
def names : Language → List String
  | javaScript => ["javascript", "js", "jsx"]
  | typeScript => ["typescript", "ts"]
  | tsx => ["tsx"]
  | python => ["python", "py"]
  | go => ["go", "golang"]
  | rust => ["rust", "rs"]
  | java => ["java"]
  | cSharp => ["csharp", "c#", "cs"]
  | ruby => ["ruby", "rb"]
  | c => ["c"]
  | cpp => ["cpp", "c++"]
  | html => ["html"]
  | css => ["css"]
  | bash => ["bash", "sh", "shell"]

/-- The language of this name. Case and surrounding blanks do not matter. -/
def ofName? (name : String) : Option Language :=
  let wanted := Text.lowerAscii (Text.trim name)
  all.find? (·.names.contains wanted)

/-- The language of this name, or the complaint that there is none. -/
def ofName (name : String) : Except ChunkError Language :=
  match ofName? name with
  | some language => .ok language
  | none => .error (.unsupportedLanguage name)

/-- The language of a file extension. Case and leading dots do not matter. -/
def ofExtension? (extension : String) : Option Language :=
  let wanted := Text.lowerAscii (String.ofList (extension.toList.dropWhile (· == '.')))
  all.find? (·.profile.extensions.contains wanted)

/-- The language of the extension of a path. -/
def ofPath? (path : String) : Option Language :=
  (Path.extension? path).bind ofExtension?

end Language

/-- What to do with a name or extension that belongs to no language. -/
inductive Fallback where
  /-- Refuse it. -/
  | strict
  /-- Take it for this language. -/
  | assume (language : Language)
deriving DecidableEq, Repr

namespace Fallback

/-- The language of a name under the policy. -/
def resolve (policy : Fallback) (name : String) : Except ChunkError Language :=
  match Language.ofName? name, policy with
  | some language, _ => .ok language
  | none, assume language => .ok language
  | none, strict => .error (.unsupportedLanguage name)

end Fallback

end DeclSplit

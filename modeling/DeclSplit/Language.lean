/-!
The languages whose declarations can be told apart, in registry order.
-/
namespace DeclSplit

/-- A language of the registry. -/
inductive Language where
  | javaScript
  | typeScript
  | tsx
  | python
  | go
  | rust
  | java
  | cSharp
  | ruby
  | c
  | cpp
  | html
  | css
  | bash
deriving DecidableEq, Repr, Inhabited

namespace Language

/-- Every language, in registry order. -/
def all : List Language :=
  [javaScript, typeScript, tsx, python, go, rust, java, cSharp, ruby, c, cpp, html, css, bash]

/-- The canonical identifier, in lower case. -/
def id : Language → String
  | javaScript => "javascript"
  | typeScript => "typescript"
  | tsx => "tsx"
  | python => "python"
  | go => "go"
  | rust => "rust"
  | java => "java"
  | cSharp => "csharp"
  | ruby => "ruby"
  | c => "c"
  | cpp => "cpp"
  | html => "html"
  | css => "css"
  | bash => "bash"

/-- The name written in diagnostic text. -/
def label : Language → String
  | javaScript => "JavaScript"
  | typeScript => "TypeScript"
  | tsx => "Tsx"
  | python => "Python"
  | go => "Go"
  | rust => "Rust"
  | java => "Java"
  | cSharp => "CSharp"
  | ruby => "Ruby"
  | c => "C"
  | cpp => "Cpp"
  | html => "Html"
  | css => "Css"
  | bash => "Bash"

/-- The language with this canonical identifier. -/
def ofId? (s : String) : Option Language :=
  all.find? (·.id == s)

theorem mem_all (l : Language) : l ∈ all := by
  cases l <;> decide

end Language

end DeclSplit

import DeclSplit.Text.Number

/-!
Structured values and their written form. The members of an object keep their order.
-/
namespace DeclSplit

/-- A structured value. A number that is not written as an integer is kept as it was written. -/
inductive Json where
  | null
  | bool (value : Bool)
  | int (value : Int)
  | real (literal : String)
  | str (text : String)
  | arr (items : List Json)
  | obj (members : List (String × Json))
deriving Repr, Inhabited

namespace Json

/-- A natural number as a value. -/
def ofNat (n : Nat) : Json := int n

/-- A text as a value. -/
def ofStrings (texts : List String) : Json := arr (texts.map str)

/-- A text or nothing as a value. -/
def ofOption : Option String → Json
  | some text => str text
  | none => null

/-! ### Writing -/

/-- The digit of a number below sixteen, in lower case. -/
def hexDigit (n : Nat) : Char :=
  if n < 10 then Char.ofNat (48 + n) else Char.ofNat (87 + n)

/-- How a character is written between quotes: the quote, the backslash and the control characters
are escaped, the latter by a letter where there is one. -/
def escapeChar (c : Char) : List Char :=
  match c.toNat with
  | 0x22 => ['\\', '"']
  | 0x5C => ['\\', '\\']
  | 0x08 => ['\\', 'b']
  | 0x09 => ['\\', 't']
  | 0x0A => ['\\', 'n']
  | 0x0C => ['\\', 'f']
  | 0x0D => ['\\', 'r']
  | n => if n < 0x20 then ['\\', 'u', '0', '0', hexDigit (n / 16), hexDigit (n % 16)] else [c]

/-- A text between quotes. -/
def quote (s : String) : String :=
  "\"" ++ String.ofList (s.toList.flatMap escapeChar) ++ "\""

mutual

/-- The written form without blanks. -/
def compact : Json → String
  | null => "null"
  | bool value => if value then "true" else "false"
  | int value => value.repr
  | real literal => literal
  | str text => quote text
  | arr items => "[" ++ compactItems "" items ++ "]"
  | obj members => "\x7b" ++ compactMembers "" members ++ "\x7d"

/-- Items, each with what stands before it. -/
def compactItems (before : String) : List Json → String
  | [] => ""
  | item :: rest => before ++ compact item ++ compactItems "," rest

/-- Members, each with what stands before it. -/
def compactMembers (before : String) : List (String × Json) → String
  | [] => ""
  | (key, value) :: rest =>
    before ++ quote key ++ ":" ++ compact value ++ compactMembers "," rest

end

/-- A line break and the indentation of the next line. -/
def newLine (depth : Nat) : String :=
  "\n" ++ String.ofList (List.replicate (2 * depth) ' ')

mutual

/-- The written form on many lines, two blanks for each level. -/
def prettyAt (depth : Nat) : Json → String
  | null => "null"
  | bool value => if value then "true" else "false"
  | int value => value.repr
  | real literal => literal
  | str text => quote text
  | arr [] => "[]"
  | arr (item :: rest) =>
    "[" ++ newLine (depth + 1) ++ prettyAt (depth + 1) item ++ prettyItems (depth + 1) rest ++
      newLine depth ++ "]"
  | obj [] => "\x7b\x7d"
  | obj ((key, value) :: rest) =>
    "\x7b" ++ newLine (depth + 1) ++ quote key ++ ": " ++ prettyAt (depth + 1) value ++
      prettyMembers (depth + 1) rest ++ newLine depth ++ "\x7d"

/-- Items after the first, each on lines of its own. -/
def prettyItems (depth : Nat) : List Json → String
  | [] => ""
  | item :: rest => "," ++ newLine depth ++ prettyAt depth item ++ prettyItems depth rest

/-- Members after the first, each on lines of its own. -/
def prettyMembers (depth : Nat) : List (String × Json) → String
  | [] => ""
  | (key, value) :: rest =>
    "," ++ newLine depth ++ quote key ++ ": " ++ prettyAt depth value ++ prettyMembers depth rest

end

/-- The written form on many lines. -/
def pretty (value : Json) : String :=
  prettyAt 0 value

/-! ### Reading records out of values -/

/-- A text. -/
def string? : Json → Option String
  | str text => some text
  | _ => none

/-- A truth value. -/
def bool? : Json → Option Bool
  | bool value => some value
  | _ => none

/-- An integer that is not negative and fits into 64 bits. -/
def word? : Json → Option Nat
  | int value => if 0 ≤ value ∧ value.toNat < Text.wordLimit then some value.toNat else none
  | _ => none

/-- A list of texts. -/
def strings? : Json → Option (List String)
  | arr items => items.mapM string?
  | _ => none

/-- A text, or none where the value is null. -/
def optionalString? : Json → Option (Option String)
  | null => some none
  | str text => some (some text)
  | _ => none

/-- The members of a record with the given names. A record is an object, whose other members do not
matter, or an array of the members in order, from whose end some may be missing. -/
def members? (names : List String) : Json → Option (List (Option Json))
  | obj members => some (names.map (members.lookup ·))
  | arr items =>
    if items.length ≤ names.length then
      some (items.map some ++ List.replicate (names.length - items.length) none)
    else
      none
  | _ => none

/-- Reads a member that has to be present. -/
def required {α : Type} (read : Json → Option α) (member : Option Json) : Option α :=
  member.bind read

/-- Reads a member that may be missing, and stands for `absent` then. -/
def withDefault {α : Type} (absent : α) (read : Json → Option α) : Option Json → Option α
  | none => some absent
  | some value => read value

end Json

end DeclSplit

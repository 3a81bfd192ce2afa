/-!
Blank characters and trimming. A character is blank when it has the Unicode property White_Space;
trimming removes blanks from both ends of a text and touches nothing between them.
-/
namespace DeclSplit.Text

/-- The characters with the Unicode property White_Space, by code point. -/
def isBlank (c : Char) : Bool :=
  let n := c.toNat
  (9 ≤ n && n ≤ 13) || n == 0x20 || n == 0x85 || n == 0xA0 || n == 0x1680 ||
    (0x2000 ≤ n && n ≤ 0x200A) || n == 0x2028 || n == 0x2029 || n == 0x202F || n == 0x205F ||
    n == 0x3000

/-- Drops the longest tail on which `p` holds throughout. -/
def dropEndWhile (p : Char → Bool) (cs : List Char) : List Char :=
  (cs.reverse.dropWhile p).reverse

/-- Removes blanks from both ends. -/
def trimChars (cs : List Char) : List Char :=
  dropEndWhile isBlank (cs.dropWhile isBlank)

/-- Removes blanks from both ends of a text. -/
def trim (s : String) : String :=
  String.ofList (trimChars s.toList)

/-- The trimmed text, unless nothing is left of it. -/
def trimmed? (s : String) : Option String :=
  let t := trim s
  if t = "" then none else some t

/-- Removes line feeds and carriage returns from the end. -/
def trimLineEnd (s : String) : String :=
  String.ofList (dropEndWhile (fun c => c == '\n' || c == '\r') s.toList)

/-- The parts between the occurrences of `separator`, at least one. -/
def splitChars (separator : Char) : List Char → List (List Char)
  | [] => [[]]
  | c :: cs =>
    if c = separator then
      [] :: splitChars separator cs
    else
      match splitChars separator cs with
      | [] => [[c]]
      | part :: parts => (c :: part) :: parts

/-- The parts of a text between the occurrences of `separator`, at least one. -/
def split (separator : Char) (s : String) : List String :=
  (splitChars separator s.toList).map String.ofList

/-- The items between commas, trimmed, without those that are blank. -/
def listItems (s : String) : List String :=
  (split ',' s).filterMap trimmed?

end DeclSplit.Text

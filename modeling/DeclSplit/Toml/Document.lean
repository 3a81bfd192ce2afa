import DeclSplit.Toml.Scalar
import DeclSplit.Toml.Table

/-!
Documents in the TOML format, version 1.0, read into structured values. Values nest less than eighty
deep, and keys have fewer than eighty parts.
-/
namespace DeclSplit.Toml

/-- The depth that values may not reach. -/
def depthLimit : Nat := 80

/-- Passes over blanks within a line. -/
def blanks : Scan Unit :=
  modify (·.dropWhile isBlank)

/-- Takes exactly this character. -/
def char (c : Char) : Scan Unit := fun cs => (exactly? c cs).map ((), ·)

/-- Takes a line break. -/
def newline : Scan Unit := fun cs => (newline? cs).map ((), ·)

/-- Takes a line break or finds the end. -/
def lineEnd : Scan Unit := fun cs =>
  match cs with
  | [] => some ((), [])
  | _ => newline cs

/-- Passes over a comment, if there is one. -/
def comment : Scan Unit :=
  modify fun cs =>
    match cs with
    | '#' :: rest => rest.dropWhile isPrintable
    | _ => cs

/-- What may follow on the line of a header or a value. -/
def lineRest : Scan Unit := do
  blanks
  comment
  lineEnd

/-- The number of characters that are left, which bounds how often anything can be taken. -/
def remaining : Scan Nat := return (← get).length

/-- Passes over blanks, comments and line breaks between the items of an array. -/
def gap : Nat → Scan Unit
  | 0 => blanks
  | fuel + 1 => do
    blanks
    match ← get with
    | '#' :: _ =>
      comment
      newline
      gap fuel
    | c :: _ => if c == '\n' || c == '\r' then do newline; gap fuel else return
    | [] => return

/-- Characters of keys without quotes. -/
def isKeyChar (c : Char) : Bool :=
  Text.isDecimal c || ('a' ≤ c && c ≤ 'z') || ('A' ≤ c && c ≤ 'Z') || c == '_' || c == '-'

/-- One part of a key. -/
def simpleKey : Scan String := fun cs =>
  match lineString cs with
  | some (chars, rest) => some (String.ofList chars, rest)
  | none =>
    let chars := cs.takeWhile isKeyChar
    if chars.isEmpty then none else some (String.ofList chars, cs.drop chars.length)

/-- Further parts of a key, each after a dot. -/
def moreKeys : Nat → Scan (List String)
  | 0 => return []
  | fuel + 1 => do
    match ← get with
    | '.' :: _ =>
      char '.'
      blanks
      let part ← simpleKey
      blanks
      return part :: (← moreKeys fuel)
    | _ => return []

/-- A key: the parts before the last one, and the last one. -/
def key : Scan (List String × String) := do
  blanks
  let first ← simpleKey
  blanks
  let parts := first :: (← moreKeys (← remaining))
  match parts.reverse with
  | last :: path => if parts.length < depthLimit then return (path.reverse, last) else failure
  | [] => failure

/-- The items of an array up to its end, by a reader for one item. -/
def arrayItems (item : Scan Json) : Nat → Scan (List Json)
  | 0 => failure
  | fuel + 1 => do
    gap (← remaining)
    match ← get with
    | ']' :: _ =>
      char ']'
      return []
    | _ =>
      let first ← item
      gap (← remaining)
      match ← get with
      | ',' :: _ =>
        char ','
        return first :: (← arrayItems item fuel)
      | _ =>
        char ']'
        return [first]

/-- The entries of an inline table up to its end, by a reader for one value. -/
def inlineEntries (item : Scan Json) (entries : Entries) : Nat → Scan Entries
  | 0 => failure
  | fuel + 1 => do
    let (path, last) ← key
    char '='
    blanks
    let value ← item
    blanks
    let entries ← (entries.insertValue path last value : Option Entries)
    match ← get with
    | ',' :: _ =>
      char ','
      inlineEntries item entries fuel
    | _ =>
      char '\x7d'
      return entries

/-- An inline table after its opening brace. -/
def inlineTable (item : Scan Json) : Scan Json := do
  blanks
  match ← get with
  | '\x7d' :: _ =>
    char '\x7d'
    return .obj []
  | _ =>
    let entries ← inlineEntries item [] (← remaining)
    return .obj (entriesToMembers entries)

/-- A value inside of which others may nest to the given depth. -/
def value : Nat → Scan Json
  | 0 => failure
  | depth + 1 => do
    match ← get with
    | '[' :: _ =>
      if depth = 0 then failure
      char '['
      return .arr (← arrayItems (value depth) (← remaining))
    | '\x7b' :: _ =>
      if depth = 0 then failure
      char '\x7b'
      inlineTable (value depth)
    | c :: _ =>
      if c == quotation || c == apostrophe then
        let chars ← fun cs => string cs
        return .str (String.ofList chars)
      else
        let chars ← fun cs => some (word cs)
        wordValue? chars
    | [] => failure

/-- A document while it is read: its entries, and the header that the next keys belong to. -/
structure State where
  entries : Entries
  header : List String

/-- A header that opens a table. -/
def tableHeader (s : State) : Scan State := do
  char '['
  let (path, last) ← key
  char ']'
  lineRest
  let entries ← (s.entries.openTable path last : Option Entries)
  return ⟨entries, path ++ [last]⟩

/-- A header that adds a table to an array. -/
def arrayHeader (s : State) : Scan State := do
  char '['
  char '['
  let (path, last) ← key
  char ']'
  char ']'
  lineRest
  let entries ← (s.entries.appendTable path last : Option Entries)
  return ⟨entries, path ++ [last]⟩

/-- A key with its value, in the table of the last header. -/
def keyValue (s : State) : Scan State := do
  let (path, last) ← key
  char '='
  blanks
  let v ← value depthLimit
  lineRest
  let entries ←
    (s.entries.update false (fun _ below => below.insertValue path last v) s.header false :
      Option Entries)
  return { s with entries }

/-- One line of a document, or several if a value goes on. -/
def line (s : State) : Scan State := do
  match ← get with
  | '#' :: _ =>
    comment
    lineEnd
    return s
  | '[' :: '[' :: _ => arrayHeader s
  | '[' :: _ => tableHeader s
  | c :: _ =>
    if c == '\n' || c == '\r' then
      newline
      return s
    else
      keyValue s
  | [] => return s

/-- The lines of a document up to its end. -/
def lines : Nat → State → Scan State
  | 0, _ => failure
  | fuel + 1, s => do
    blanks
    match ← get with
    | [] => return s
    | _ => lines fuel (← line s)

/-- The value of a document. A mark of the byte order at its start does not count. -/
def parse? (text : String) : Option Json :=
  let cs :=
    match text.toList with
    | c :: rest => if c.toNat = 0xFEFF then rest else c :: rest
    | [] => []
  match (lines (cs.length + 1) ⟨[], []⟩).run cs with
  | some (s, _) => some (.obj (entriesToMembers s.entries))
  | none => none

end DeclSplit.Toml

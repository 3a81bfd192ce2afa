import DeclSplit.File.Disk
import DeclSplit.Settings.Variables

/-!
Variables defined in a file. Each line defines one, as in `KEY=value`; a quoted value may go on over
several lines, and a value may refer to other variables. A variable that has a value already keeps it.
What follows the first line that cannot be read does not count.
-/
namespace DeclSplit.EnvFile

/-! ### Lines -/

/-- Where a reader of lines is: within quotes, after a backslash, after a blank, or none of these. -/
inductive Quoting where
  | complete
  | blank
  | escape
  | weak
  | weakEscape
  | strong
  | strongEscape
  | comment
deriving DecidableEq, Repr

/-- Reads a character outside of quotes. -/
def Quoting.outside (c : Char) : Quoting :=
  match c with
  | '\\' => escape
  | '"' => weak
  | '\'' => strong
  | _ => complete

/-- Reads a character. A hash after a blank starts a comment. -/
def Quoting.step : Quoting → Char → Quoting
  | complete, c =>
    if Text.isBlank c && c != '\n' && c != '\r' then blank else outside c
  | blank, c => if c = '#' then comment else outside c
  | escape, _ => complete
  | weak, c => if c = '\\' then weakEscape else if c = '"' then complete else weak
  | weakEscape, _ => weak
  | strong, c => if c = '\\' then strongEscape else if c = '\'' then complete else strong
  | strongEscape, _ => strong
  | comment, _ => comment

/-- Reads a line up to a comment: where the reader is after it, and the characters before the
comment. -/
def scanLine (state : Quoting) : List Char → Quoting × List Char
  | [] => (state, [])
  | c :: rest =>
    match state.step c with
    | .comment => (.comment, [])
    | next =>
      let (final, kept) := scanLine next rest
      (final, c :: kept)

/-- Removes the line feed at the end, and the carriage return before it. -/
def dropLineEnd (line : List Char) : List Char :=
  match line.reverse with
  | '\n' :: '\r' :: rest => rest.reverse
  | '\n' :: rest => rest.reverse
  | _ => line

/-- The lines of a file, each with the line feed that ends it. -/
def physicalLines : List UInt8 → List UInt8 → List (List UInt8)
  | line, [] => if line.isEmpty then [] else [line.reverse]
  | line, b :: rest =>
    if b = 0x0A then (b :: line).reverse :: physicalLines [] rest else physicalLines (b :: line) rest

/-- The lines with those joined that a quoted value goes over, where `held` is what is still to go on.
A line that is no text or that is never completed is none, and ends the list. -/
def logicalLines (state : Quoting) (held : List Char) : List (List UInt8) → List (Option (List Char))
  | [] => if state = .complete then [] else [none]
  | bytes :: rest =>
    match String.fromUTF8? ⟨bytes.toArray⟩ with
    | none => [none]
    | some text =>
      let line := held ++ text.toList
      if (line.dropWhile Text.isBlank).head? = some '#' then
        some [] :: logicalLines .complete [] rest
      else
        match scanLine state text.toList with
        | (.comment, kept) => some (held ++ kept) :: logicalLines .complete [] rest
        | (.complete, _) => some (dropLineEnd line) :: logicalLines .complete [] rest
        | (state, _) => logicalLines state line rest

/-! ### Values -/

/-- What the character at hand belongs to. -/
inductive Mode where
  | plain
  /-- The character after a backslash. -/
  | escaped
  /-- Text between single quotes. -/
  | strong
  /-- Blanks after the value. -/
  | ending
  /-- The name of a variable, the last character first. -/
  | name (letters : List Char)
  /-- The name of a variable between braces, the last character first. -/
  | braced (letters : List Char)

/-- What has been read of a value. -/
structure Draft where
  mode : Mode := .plain
  /-- Whether double quotes are open. -/
  weak : Bool := false
  /-- The value, the last character first. -/
  output : List Char := []

namespace Draft

/-- Adds a character and goes on plainly. -/
def push (d : Draft) (c : Char) : Draft :=
  { d with mode := .plain, output := c :: d.output }

/-- Adds the value of a variable and goes on plainly. -/
def expand (d : Draft) (vars : Variables) (letters : List Char) : Draft :=
  let value := (vars (String.ofList letters.reverse)).getD ""
  { d with mode := .plain, output := value.toList.reverse ++ d.output }

/-- Whether a character can be part of a name that stands without braces. Beyond ASCII that is every
character that is not blank. -/
def isNameChar (c : Char) : Bool :=
  c.isAlphanum || (0x80 ≤ c.toNat && !Text.isBlank c)

/-- Reads a character where nothing special is open but double quotes. -/
def plainStep (d : Draft) (c : Char) : Draft :=
  if c = '$' then { d with mode := .name [] }
  else if c = '\\' then { d with mode := .escaped }
  else if c = '"' then { d with weak := !d.weak }
  else if d.weak then d.push c
  else if c = '\'' then { d with mode := .strong }
  else if c = ' ' ∨ c = '\t' then { d with mode := .ending }
  else d.push c

/-- The character that an escaped character stands for. -/
def unescape? (c : Char) : Option Char :=
  if c = 'n' then some '\n'
  else if ['\\', '\'', '"', '$', ' '].contains c then some c
  else none

/-- Reads the rest of a value. After a blank outside of quotes only a comment may follow. -/
def read (vars : Variables) (d : Draft) : List Char → Option (List Char)
  | [] =>
    match d.mode with
    | .braced _ => none
    | .strong => none
    | .name letters => if d.weak then none else some (d.expand vars letters).output.reverse
    | _ => if d.weak then none else some d.output.reverse
  | c :: rest =>
    match d.mode with
    | .plain => (d.plainStep c).read vars rest
    | .escaped => (unescape? c).bind fun c => (d.push c).read vars rest
    | .strong =>
      if c = '\'' then
        { d with mode := .plain }.read vars rest
      else
        { d with output := c :: d.output }.read vars rest
    | .ending =>
      if c = ' ' ∨ c = '\t' then d.read vars rest
      else if c = '#' then some d.output.reverse
      else none
    | .name letters =>
      if isNameChar c then
        { d with mode := .name (c :: letters) }.read vars rest
      else if c = '{' ∧ letters = [] then
        { d with mode := .braced [] }.read vars rest
      else if c = '$' then
        { d.expand vars letters with mode := .name [] }.read vars rest
      else
        ((d.expand vars letters).push c).read vars rest
    | .braced letters =>
      if c = '}' then
        (d.expand vars letters).read vars rest
      else
        { d with mode := .braced (c :: letters) }.read vars rest

end Draft

/-! ### Definitions -/

/-- What a line holds. -/
inductive Line where
  | nothing
  | definition (name value : String)
  | invalid

/-- The name at the start of a line, and what follows it and the blanks after it. -/
def key? (line : List Char) : Option (String × List Char) :=
  let isLetter (c : Char) := c.isAlpha || c == '_'
  let isPart (c : Char) := c.isAlphanum || c == '_' || c == '.'
  match line with
  | [] => none
  | c :: _ =>
    if isLetter c then
      some (String.ofList (line.takeWhile isPart), (line.dropWhile isPart).dropWhile Text.isBlank)
    else
      none

/-- What follows an equals sign. -/
def afterEquals? : List Char → Option (List Char)
  | '=' :: rest => some rest
  | _ => none

/-- The name that a line defines and what follows the equals sign. The word `export` may come first,
and is a name itself when an equals sign follows. -/
def target? (line : List Char) : Option (String × List Char) := do
  let (name, rest) ← key? line
  match afterEquals? rest with
  | some value => return (name, value)
  | none =>
    if name ≠ "export" then none
    let (name, rest) ← key? rest
    return (name, ← afterEquals? rest)

/-- Reads a line. -/
def readLine (vars : Variables) (line : List Char) : Line :=
  let line := Text.trimChars line
  if line.isEmpty || line.head? == some '#' then
    .nothing
  else
    match target? line with
    | none => .invalid
    | some (name, rest) =>
      let value := rest.dropWhile Text.isBlank
      if value.isEmpty || value.head? == some '#' then
        .definition name ""
      else
        match Draft.read vars {} value with
        | some value => .definition name (String.ofList value)
        | none => .invalid

/-- The variables with one more, unless it has a value already. -/
def define (vars : Variables) (name value : String) : Variables :=
  fun n => if n = name then some ((vars name).getD value) else vars n

/-- The variables after the lines of a file. -/
def apply (vars : Variables) : List (Option (List Char)) → Variables
  | [] => vars
  | none :: _ => vars
  | some line :: rest =>
    match readLine vars line with
    | .nothing => apply vars rest
    | .definition name value => apply (define vars name value) rest
    | .invalid => vars

/-- The bytes of a file without a byte-order mark. -/
def withoutMark : List UInt8 → List UInt8
  | 0xEF :: 0xBB :: 0xBF :: rest => rest
  | bytes => bytes

/-- The variables together with those of a file. -/
def load (vars : Variables) (content : ByteArray) : Variables :=
  apply vars (logicalLines .complete [] (physicalLines [] (withoutMark content.data.toList)))

/-- The file `.env` of the working directory, or of the nearest directory above it that has one. -/
def find? (disk : Disk) : Option ByteArray :=
  let place := disk.workingDirectory
  (List.range (place.length + 1)).reverse.findSome? fun depth =>
    disk.readFrom? (place.take depth) [".env"]

end DeclSplit.EnvFile

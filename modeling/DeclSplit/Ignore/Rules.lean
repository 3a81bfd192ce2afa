import DeclSplit.Ignore.Glob
import DeclSplit.Text.Blank

/-!
Rules on which paths are left out, as they are written in ignore files: one pattern a line, the last
line that matches decides.
-/
namespace DeclSplit.Ignore

/-- A line of an ignore file. -/
structure Rule where
  glob : Glob
  /-- Whether a path that matches is kept instead of left out. -/
  keeps : Bool
  /-- Whether only directories can match. -/
  onlyDirectories : Bool

/-- What the rules say about a path. -/
inductive Verdict where
  | leaveOut
  | keep
deriving DecidableEq, Repr

namespace Rule

/-- Removes blanks at the end, unless the last one is escaped. -/
def trimEnd (line : List Char) : List Char :=
  if [' ', '\\'].isPrefixOf line.reverse then line else Text.dropEndWhile Text.isBlank line

/-- Whether a pattern may start in any directory already. -/
def startsAnywhere (pattern : List Char) : Bool :=
  ['*', '*', '/'].isPrefixOf pattern || pattern == ['*', '*']

/-- The pattern that is matched against paths. Without a separator it may start in any directory; if
it ends in two stars, the directory itself does not match. -/
def widen (anchored : Bool) (pattern : List Char) : List Char :=
  let pattern :=
    if !anchored && !pattern.contains '/' && !startsAnywhere pattern then
      '*' :: '*' :: '/' :: pattern
    else
      pattern
  if ['*', '*', '/'].isPrefixOf pattern.reverse then pattern ++ ['/', '*'] else pattern

/-- Whether a pattern is for directories only, and the pattern without the mark for that. -/
def directoryMark (pattern : List Char) : Bool × List Char :=
  match pattern.reverse with
  | '/' :: '\\' :: rest => (true, rest.reverse)
  | '/' :: rest => (true, rest.reverse)
  | _ => (false, pattern)

/-- Takes the mark for exceptions and the separator at the start off a pattern: whether it is an
exception, whether it is anchored, and the rest. -/
def marks (line : List Char) : Bool × Bool × List Char :=
  match line with
  | '\\' :: '!' :: rest => (false, false, '!' :: rest)
  | '\\' :: '#' :: rest => (false, false, '#' :: rest)
  | '!' :: '/' :: rest => (true, true, rest)
  | '!' :: rest => (true, false, rest)
  | '/' :: rest => (false, true, rest)
  | line => (false, false, line)

/-- The rule of a line. Comments, blank lines and patterns that cannot be read are none. -/
def ofLine? (line : List Char) : Option Rule :=
  if line.head? = some '#' then
    none
  else
    let line := trimEnd line
    if line.isEmpty then
      none
    else
      let (keeps, anchored, pattern) := marks line
      let (onlyDirectories, pattern) := directoryMark pattern
      (Glob.ofPattern? (String.ofList (widen anchored pattern))).map
        fun glob => { glob, keeps, onlyDirectories }

/-- Whether the rule speaks of a path. -/
def covers (rule : Rule) (path : List UInt8) (isDirectory : Bool) : Bool :=
  (isDirectory || !rule.onlyDirectories) && rule.glob.accepts path

/-- What the rule says about a path that it speaks of. -/
def verdict (rule : Rule) : Verdict :=
  if rule.keeps then .keep else .leaveOut

end Rule

/-- The lines of a file. A line feed ends a line and takes a carriage return before it along. -/
def lines : List UInt8 → List UInt8 → List (List UInt8)
  | line, [] => if line.isEmpty then [] else [line.reverse]
  | line, b :: rest =>
    if b = 0x0A then
      let line :=
        match line with
        | 0x0D :: line => line
        | line => line
      line.reverse :: lines [] rest
    else
      lines (b :: line) rest

/-- The texts at the start of a list of lines, up to the first that is none. -/
def texts : List (List UInt8) → List (List Char)
  | [] => []
  | line :: rest =>
    match String.fromUTF8? ⟨line.toArray⟩ with
    | some text => text.toList :: texts rest
    | none => []

/-- The first line without byte-order marks at its start, the others as they are. -/
def dropMarks : List (List Char) → List (List Char)
  | [] => []
  | line :: rest => line.dropWhile (·.toNat == 0xFEFF) :: rest

/-- The rules of an ignore file. -/
def rules (content : ByteArray) : List Rule :=
  (dropMarks (texts (lines [] content.data.toList))).filterMap Rule.ofLine?

/-- What the last rule that speaks of a path says about it. -/
def verdict? (rules : List Rule) (path : List UInt8) (isDirectory : Bool) : Option Verdict :=
  (rules.reverse.find? (·.covers path isDirectory)).map Rule.verdict

end DeclSplit.Ignore

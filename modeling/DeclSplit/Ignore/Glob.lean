/-!
Patterns for paths. A path is matched as a whole and byte by byte. Between separators `?` stands for
one byte, `*` for any number of them and `[…]` for one of a class; `**` as a whole component stands for
any number of components; braces hold alternatives, and a backslash takes the next character as it is.
-/
namespace DeclSplit

namespace Glob

/-- A part of a pattern. -/
inductive Token where
  /-- This byte. -/
  | byte (b : UInt8)
  /-- One byte within a component. -/
  | any
  /-- Any number of bytes within a component. -/
  | star
  /-- One byte of some ranges, or outside of all of them. -/
  | oneOf (negated : Bool) (ranges : List (UInt8 × UInt8))
  /-- Components in front of the rest, each with its separator, or none. -/
  | leading
  /-- A separator and all that follows. -/
  | trailing
  /-- A separator, or components between two separators. -/
  | between
  /-- One of several alternatives. -/
  | either (branches : List (List Token))

/-! ### Reading a pattern -/

/-- The bytes of a character. -/
def bytesOf (c : Char) : List UInt8 := String.utf8EncodeChar c

/-- The bytes of a range of characters. Only the byte at the end of the lower bound and the one at the
start of the upper bound span a range. -/
def byteRanges (range : Char × Char) : List (UInt8 × UInt8) :=
  let low := bytesOf range.1
  let high := bytesOf range.2
  if range.1 = range.2 then
    low.map fun b => (b, b)
  else
    (low.dropLast.map fun b => (b, b)) ++ [(low.getLastD 0, high.headD 0)] ++
      (high.drop 1).map fun b => (b, b)

/-- What follows an opening bracket. -/
inductive Bracket where
  /-- A class, with the number of characters it takes after the bracket. -/
  | closed (ranges : List (Char × Char)) (length : Nat)
  /-- No bracket closes the class. -/
  | unclosed
  /-- A range ends before it starts. -/
  | invalid

/-- Reads the ranges of a class, the last one first in `ranges`. A closing bracket that comes first and
a hyphen that comes first or last stand for themselves. -/
def bracket (first inRange : Bool) (ranges : List (Char × Char)) (length : Nat) :
    List Char → Bracket
  | [] => .unclosed
  | c :: rest =>
    if c = ']' ∧ !first then
      .closed (if inRange then ('-', '-') :: ranges else ranges).reverse (length + 1)
    else if c = '-' ∧ !first ∧ !inRange then
      bracket false true ranges (length + 1) rest
    else if inRange then
      match ranges with
      | (low, _) :: ranges =>
        if c < low then .invalid else bracket false false ((low, c) :: ranges) (length + 1) rest
      | [] => .invalid
    else
      bracket false false ((c, c) :: ranges) (length + 1) rest

/-- What has been read of a pattern. -/
structure Draft where
  /-- The tokens of the branch at hand, the last one first. -/
  tokens : List Token := []
  /-- The groups that are open, the innermost first: what came before the group and the branches that
  are complete, both with the last one first. -/
  groups : List (List Token × List (List Token)) := []
  /-- The character before. -/
  previous : Option Char := none
  /-- How many of the characters that follow are read already. -/
  skip : Nat := 0

namespace Draft

/-- Adds tokens that were read from this character and a number of those that follow. -/
def push (d : Draft) (tokens : List Token) (ahead : Nat) : Draft :=
  { d with tokens := tokens.reverse ++ d.tokens, skip := ahead }

/-- Adds a character that stands for itself. -/
def literal (d : Draft) (c : Char) (ahead : Nat) : Draft :=
  d.push ((bytesOf c).map .byte) ahead

/-- Replaces the separator before `**`, unless what stands there takes in all components already. -/
def spread (d : Draft) (token : Token) (ahead : Nat) : Draft :=
  match d.tokens with
  | .leading :: _ => { d with skip := ahead }
  | .trailing :: _ => { d with skip := ahead }
  | _ :: before => { d with tokens := token :: before, skip := ahead }
  | [] => { d with tokens := [token], skip := ahead }

/-- Reads a star, `ahead` being what follows it. Two stars are special only as a whole component. -/
def star (d : Draft) (ahead : List Char) : Draft :=
  match ahead with
  | '*' :: after =>
    let grouped := !d.groups.isEmpty
    let starts :=
      d.previous == some '/' || (grouped && (d.previous == some ',' || d.previous == some '{'))
    if d.tokens.isEmpty then
      match after with
      | [] => d.push [.leading] 1
      | '/' :: _ => d.push [.leading] 2
      | _ => d.push [.star, .star] 1
    else if !starts then
      d.push [.star, .star] 1
    else
      match after with
      | [] => d.spread .trailing 1
      | '/' :: _ => d.spread .between 2
      | c :: _ =>
        if grouped && (c == ',' || c == '}') then
          d.spread .trailing 1
        else
          d.push [.star, .star] 1
  | _ => d.push [.star] 0

/-- Reads a class, `ahead` being what follows the bracket. A bracket that is never closed stands for
itself. -/
def openBracket (d : Draft) (ahead : List Char) : Option Draft :=
  let negated := ahead.head? == some '!' || ahead.head? == some '^'
  let skipped := if negated then 1 else 0
  match bracket true false [] skipped (ahead.drop skipped) with
  | .closed ranges length => some (d.push [.oneOf negated (ranges.flatMap byteRanges)] length)
  | .unclosed => some (d.literal '[' 0)
  | .invalid => none

/-- Reads a character, `ahead` being what follows it. -/
def step (d : Draft) (c : Char) (ahead : List Char) : Option Draft :=
  match c with
  | '?' => some (d.push [.any] 0)
  | '*' => some (d.star ahead)
  | '[' => d.openBracket ahead
  | '{' => some { d with tokens := [], groups := (d.tokens, []) :: d.groups }
  | '}' =>
    match d.groups with
    | [] => none
    | (before, branches) :: groups =>
      let branches := (d.tokens.reverse :: branches).reverse
      some { d with tokens := .either branches :: before, groups }
  | ',' =>
    match d.groups with
    | [] => some (d.literal ',' 0)
    | (before, branches) :: groups =>
      some { d with tokens := [], groups := (before, d.tokens.reverse :: branches) :: groups }
  | '\\' => ahead.head?.map fun c => d.literal c 1
  | c => some (d.literal c 0)

/-- Reads the rest of a pattern. A pattern with a group that is not closed is none. -/
def read (d : Draft) : List Char → Option (List Token)
  | [] => if d.groups.isEmpty then some d.tokens.reverse else none
  | c :: rest =>
    if d.skip = 0 then
      match d.step c rest with
      | some d => { d with previous := some c }.read rest
      | none => none
    else
      { d with skip := d.skip - 1, previous := some c }.read rest

end Draft

/-! ### Matching -/

/-- The byte between components. -/
def separator : UInt8 := 0x2F

/-- One byte with a property, then the rest. -/
def oneByte (p : UInt8 → Bool) (next : List UInt8 → Bool) : List UInt8 → Bool
  | [] => false
  | b :: rest => p b && next rest

/-- Any number of bytes within a component, then the rest. -/
def within (next : List UInt8 → Bool) : List UInt8 → Bool
  | [] => next []
  | b :: rest => next (b :: rest) || (b != separator && within next rest)

/-- Any number of bytes, then the rest. -/
def anywhere (next : List UInt8 → Bool) : List UInt8 → Bool
  | [] => next []
  | b :: rest => next (b :: rest) || anywhere next rest

/-- A separator, then the rest. -/
def afterSeparator (next : List UInt8 → Bool) : List UInt8 → Bool :=
  oneByte (· == separator) next

mutual

/-- Whether a token has nothing to match: alternatives are dropped when they are empty. -/
def Token.isVoid : Token → Bool
  | .either branches => areVoid branches
  | _ => false

/-- Whether tokens have nothing to match. -/
def isVoid : List Token → Bool
  | [] => true
  | token :: rest => token.isVoid && isVoid rest

/-- Whether no branch has anything to match. -/
def areVoid : List (List Token) → Bool
  | [] => true
  | branch :: rest => isVoid branch && areVoid rest

end

mutual

/-- Whether a token takes a part of the path so that the rest is accepted. -/
def Token.accepts : Token → (List UInt8 → Bool) → List UInt8 → Bool
  | .byte b, next, path => oneByte (· == b) next path
  | .any, next, path => oneByte (· != separator) next path
  | .star, next, path => within next path
  | .oneOf negated ranges, next, path =>
    oneByte (fun b => negated != ranges.any fun (low, high) => low ≤ b && b ≤ high) next path
  | .leading, next, path => next path || anywhere (afterSeparator next) path
  | .trailing, next, path => afterSeparator (anywhere next) path
  | .between, next, path =>
    afterSeparator (fun path => next path || anywhere (afterSeparator next) path) path
  | .either branches, next, path =>
    if areVoid branches then next path else acceptsSome branches next path

/-- Whether tokens take a part of the path so that the rest is accepted. -/
def acceptsAll : List Token → (List UInt8 → Bool) → List UInt8 → Bool
  | [], next, path => next path
  | token :: rest, next, path => token.accepts (acceptsAll rest next) path

/-- Whether one of the branches that are not empty takes a part of the path so that the rest is
accepted. -/
def acceptsSome : List (List Token) → (List UInt8 → Bool) → List UInt8 → Bool
  | [], _, _ => false
  | branch :: rest, next, path =>
    (!isVoid branch && acceptsAll branch next path) || acceptsSome rest next path

end

end Glob

/-- A pattern for paths. -/
structure Glob where
  tokens : List Glob.Token

namespace Glob

/-- The pattern that a text stands for. -/
def ofPattern? (pattern : String) : Option Glob :=
  (Draft.read {} pattern.toList).map Glob.mk

/-- Whether the whole path fits the pattern. Two stars alone take in everything. -/
def accepts (g : Glob) (path : List UInt8) : Bool :=
  match g.tokens with
  | [.leading] => true
  | tokens => acceptsAll tokens List.isEmpty path

end Glob

end DeclSplit

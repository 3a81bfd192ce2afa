import DeclSplit.Json
import DeclSplit.Text.Number

/-!
The single values of the TOML format: strings, numbers, truth values and dates.
-/
namespace DeclSplit.Toml

/-- A reader takes a part of the characters and leaves the rest, or fails. -/
abbrev Scan := StateT (List Char) Option

/-- The mark of basic strings. -/
def quotation : Char := Char.ofNat 0x22

/-- The mark of literal strings. -/
def apostrophe : Char := Char.ofNat 0x27

/-- Blanks within a line. -/
def isBlank (c : Char) : Bool := c == ' ' || c == '\t'

/-- Characters that may stand in comments and strings: all but the control characters, of which only
the tabulator is allowed. -/
def isPrintable (c : Char) : Bool := c == '\t' || (0x20 ≤ c.toNat && c.toNat != 0x7F)

/-- Takes a line break off the front. -/
def newline? : List Char → Option (List Char)
  | '\n' :: rest => some rest
  | '\r' :: '\n' :: rest => some rest
  | _ => none

/-! ### Strings -/

/-- The number of hexadecimal digits. -/
def hexNumber? (digits : List Char) : Option Nat :=
  digits.foldlM
    (fun n c =>
      if Text.isDecimal c then some (16 * n + (c.toNat - 48))
      else if 'a' ≤ c ∧ c ≤ 'f' then some (16 * n + (c.toNat - 87))
      else if 'A' ≤ c ∧ c ≤ 'F' then some (16 * n + (c.toNat - 55))
      else none)
    0

/-- The character that hexadecimal digits give the code point of. -/
def hexChar? (digits : List Char) : Option Char :=
  (hexNumber? digits).bind fun n => if n.isValidChar then some (Char.ofNat n) else none

/-- The character that a letter after a backslash stands for. -/
def escaped? (c : Char) : Option Char :=
  match c.toNat with
  | 0x62 => some (Char.ofNat 8)
  | 0x74 => some (Char.ofNat 9)
  | 0x6E => some (Char.ofNat 10)
  | 0x66 => some (Char.ofNat 12)
  | 0x72 => some (Char.ofNat 13)
  | 0x22 => some quotation
  | 0x5C => some (Char.ofNat 0x5C)
  | _ => none

/-- Puts a character before what was read. -/
def prepend (c : Char) (read : Option (List Char × List Char)) : Option (List Char × List Char) :=
  read.map fun (chars, rest) => (c :: chars, rest)

/-- The rest of a basic string on one line, up to its closing mark. -/
def basicBody : List Char → Option (List Char × List Char)
  | [] => none
  | '\\' :: 'u' :: a :: b :: c :: d :: rest =>
    (hexChar? [a, b, c, d]).bind fun e => prepend e (basicBody rest)
  | '\\' :: 'U' :: a :: b :: c :: d :: e :: f :: g :: h :: rest =>
    (hexChar? [a, b, c, d, e, f, g, h]).bind fun e => prepend e (basicBody rest)
  | '\\' :: c :: rest => (escaped? c).bind fun e => prepend e (basicBody rest)
  | c :: rest =>
    if c == quotation then some ([], rest)
    else if isPrintable c && c != '\\' then prepend c (basicBody rest)
    else none

/-- The rest of a literal string on one line, up to its closing mark. -/
def literalBody : List Char → Option (List Char × List Char)
  | [] => none
  | c :: rest =>
    if c == apostrophe then some ([], rest)
    else if isPrintable c then prepend c (literalBody rest)
    else none

/-- The end of a string over several lines: three marks, before which two more may belong to the
string. -/
def closing? (mark : Char) (cs : List Char) : Option (List Char × List Char) :=
  let marks := (cs.takeWhile (· == mark)).length
  if marks < 3 then none
  else
    let inside := min (marks - 3) 2
    some (List.replicate inside mark, cs.drop (inside + 3))

/-- The rest of a basic string over several lines. After a backslash at the end of a line, blanks and
line breaks are passed over. -/
def basicLines (skipping : Bool) : List Char → Option (List Char × List Char)
  | [] => none
  | '\r' :: '\n' :: rest =>
    if skipping then basicLines true rest else prepend '\n' (basicLines false rest)
  | '\n' :: rest =>
    if skipping then basicLines true rest else prepend '\n' (basicLines false rest)
  | '\\' :: 'u' :: a :: b :: c :: d :: rest =>
    (hexChar? [a, b, c, d]).bind fun e => prepend e (basicLines false rest)
  | '\\' :: 'U' :: a :: b :: c :: d :: e :: f :: g :: h :: rest =>
    (hexChar? [a, b, c, d, e, f, g, h]).bind fun e => prepend e (basicLines false rest)
  | '\\' :: c :: rest =>
    if (newline? ((c :: rest).dropWhile isBlank)).isSome then
      basicLines true (c :: rest)
    else
      (escaped? c).bind fun e => prepend e (basicLines false rest)
  | c :: rest =>
    if skipping && isBlank c then
      basicLines true rest
    else
      match (if c == quotation then closing? quotation (c :: rest) else none) with
      | some ended => some ended
      | none =>
        if isPrintable c && c != '\\' then prepend c (basicLines false rest) else none

/-- The rest of a literal string over several lines. -/
def literalLines : List Char → Option (List Char × List Char)
  | [] => none
  | '\r' :: '\n' :: rest => prepend '\n' (literalLines rest)
  | '\n' :: rest => prepend '\n' (literalLines rest)
  | c :: rest =>
    match (if c == apostrophe then closing? apostrophe (c :: rest) else none) with
    | some ended => some ended
    | none => if isPrintable c then prepend c (literalLines rest) else none

/-- A line break directly after the opening mark does not belong to the string. -/
def dropNewline (cs : List Char) : List Char :=
  (newline? cs).getD cs

/-- A string on one line. -/
def lineString (cs : List Char) : Option (List Char × List Char) :=
  match cs with
  | [] => none
  | c :: rest =>
    if c == quotation then basicBody rest
    else if c == apostrophe then literalBody rest
    else none

/-- A string, on one line or over several. -/
def string (cs : List Char) : Option (List Char × List Char) :=
  if (List.replicate 3 quotation).isPrefixOf cs then
    basicLines false (dropNewline (cs.drop 3))
  else if (List.replicate 3 apostrophe).isPrefixOf cs then
    literalLines (dropNewline (cs.drop 3))
  else
    lineString cs

/-! ### Numbers -/

/-- Digits, between which single underscores may stand; `afterDigit` says whether the character
before was a digit. -/
def isGrouped (isDigit : Char → Bool) (afterDigit : Bool) : List Char → Bool
  | [] => afterDigit
  | c :: rest =>
    if isDigit c then isGrouped isDigit true rest
    else c == '_' && afterDigit && isGrouped isDigit false rest

/-- Digits without the underscores between them. -/
def ungroup (cs : List Char) : List Char := cs.filter (· != '_')

/-- Takes a sign off the front: whether it is negative, and the rest. -/
def unsign : List Char → Bool × List Char
  | '-' :: rest => (true, rest)
  | '+' :: rest => (false, rest)
  | cs => (false, cs)

/-- Decimal digits that do not start with a superfluous zero. -/
def isDecimalInteger (cs : List Char) : Bool :=
  isGrouped Text.isDecimal false cs && (cs.length == 1 || cs.head? != some '0')

/-- The number of digits to a base that is given by a letter after a zero. -/
def basedNumber? (base : Nat) (cs : List Char) : Option Nat :=
  let isDigit (c : Char) : Bool :=
    match hexNumber? [c] with
    | some n => n < base
    | none => false
  if isGrouped isDigit false cs then
    (ungroup cs).foldlM (fun n c => (hexNumber? [c]).map (base * n + ·)) 0
  else
    none

/-- An integer between -2^63 and 2^63 - 1. -/
def integer? (cs : List Char) : Option Int := do
  let value : Int ←
    match cs with
    | '0' :: 'x' :: rest => (basedNumber? 16 rest).map Int.ofNat
    | '0' :: 'o' :: rest => (basedNumber? 8 rest).map Int.ofNat
    | '0' :: 'b' :: rest => (basedNumber? 2 rest).map Int.ofNat
    | _ =>
      let (negative, digits) := unsign cs
      if isDecimalInteger digits then
        let n : Int := Text.digitsValue 0 (ungroup digits)
        some (if negative then -n else n)
      else
        none
  if -9223372036854775808 ≤ value ∧ value < 9223372036854775808 then some value else none

/-- The exponent of a number, if what is written is one. -/
def exponent? : List Char → Option Int
  | [] => some 0
  | c :: rest =>
    if c == 'e' || c == 'E' then
      let (negative, digits) := unsign rest
      if isGrouped Text.isDecimal false digits then
        let n : Int := Text.digitsValue 0 (ungroup digits)
        some (if negative then -n else n)
      else
        none
    else
      none

/-- Whether a number of these digits, times a power of ten, is so large that rounding it to a double
gives infinity. -/
def overflows (digits : List Char) (power : Int) : Bool :=
  let significant := digits.dropWhile (· == '0')
  let top := significant.length + power
  if significant.isEmpty || top < 300 then false
  else if 320 < top then true
  else
    let n := Text.digitsValue 0 significant
    let limit := Nat.pow 2 1024 - Nat.pow 2 970
    if 0 ≤ power then limit ≤ n * Nat.pow 10 power.toNat
    else limit * Nat.pow 10 (-power).toNat ≤ n

/-- Whether what is written is a floating-point number: a fraction, an exponent or both, or one of
the names of the special values. -/
def isFloat (cs : List Char) : Bool :=
  let (negative, body) := unsign cs
  if body == "inf".toList || body == "nan".toList then true
  else
    let isMantissa (c : Char) : Bool := Text.isDecimal c || c == '_'
    let whole := body.takeWhile isMantissa
    let rest := body.drop whole.length
    let fraction :=
      match rest with
      | '.' :: more => more.takeWhile isMantissa
      | _ => []
    let rest :=
      match rest with
      | '.' :: more => if fraction.isEmpty then rest else more.drop fraction.length
      | _ => rest
    let hasFraction := !fraction.isEmpty
    match exponent? rest with
    | none => false
    | some exponent =>
      isDecimalInteger whole && (hasFraction || !rest.isEmpty) &&
        (!hasFraction || isGrouped Text.isDecimal false fraction) &&
        (negative ||
          !overflows (ungroup whole ++ ungroup fraction)
            (exponent - (ungroup fraction).length))

/-! ### Dates and times -/

/-- Takes a number of exactly this many digits off the front. -/
def fixedDigits? (count : Nat) (cs : List Char) : Option (Nat × List Char) :=
  let digits := cs.take count
  if digits.length == count && digits.all Text.isDecimal then
    some (Text.digitsValue 0 digits, cs.drop count)
  else
    none

/-- Takes a character off the front. -/
def exactly? (c : Char) : List Char → Option (List Char)
  | d :: rest => if d == c then some rest else none
  | [] => none

/-- The number of days of a month. -/
def daysOf (year month : Nat) : Nat :=
  if month == 2 then
    if (year % 4 == 0 && year % 100 != 0) || year % 400 == 0 then 29 else 28
  else if month == 4 || month == 6 || month == 9 || month == 11 then 30
  else 31

/-- Takes a day of the calendar off the front. -/
def date? (cs : List Char) : Option (List Char) := do
  let (year, cs) ← fixedDigits? 4 cs
  let cs ← exactly? '-' cs
  let (month, cs) ← fixedDigits? 2 cs
  let cs ← exactly? '-' cs
  let (day, cs) ← fixedDigits? 2 cs
  if 1 ≤ month ∧ month ≤ 12 ∧ 1 ≤ day ∧ day ≤ daysOf year month then some cs else none

/-- Takes a time of the day off the front. -/
def time? (cs : List Char) : Option (List Char) := do
  let (hour, cs) ← fixedDigits? 2 cs
  let cs ← exactly? ':' cs
  let (minute, cs) ← fixedDigits? 2 cs
  let cs ← exactly? ':' cs
  let (second, cs) ← fixedDigits? 2 cs
  if hour ≤ 23 ∧ minute ≤ 59 ∧ second ≤ 60 then
    match cs with
    | '.' :: more =>
      if (more.takeWhile Text.isDecimal).isEmpty then some cs
      else some (more.dropWhile Text.isDecimal)
    | _ => some cs
  else
    none

/-- Takes the distance from universal time off the front, if there is one. -/
def offset? (cs : List Char) : Option (List Char) :=
  match cs with
  | [] => some []
  | c :: rest =>
    if c == 'Z' || c == 'z' then
      some rest
    else if c == '+' || c == '-' then do
      let (hour, rest) ← fixedDigits? 2 rest
      let rest ← exactly? ':' rest
      let (minute, rest) ← fixedDigits? 2 rest
      if hour ≤ 23 ∧ minute ≤ 59 then some rest else none
    else
      some cs

/-- Whether what is written is a date, a time, or both. -/
def isDateTime (cs : List Char) : Bool :=
  match date? cs with
  | some [] => true
  | some (c :: rest) =>
    (c == 'T' || c == 't' || c == ' ') && ((time? rest).bind offset?) == some []
  | none => time? cs == some []

/-! ### Words -/

/-- Characters of numbers, dates and the names of values. -/
def isWordChar (c : Char) : Bool :=
  Text.isDecimal c || ('a' ≤ c && c ≤ 'z') || ('A' ≤ c && c ≤ 'Z') ||
    c == '+' || c == '-' || c == '_' || c == '.' || c == ':'

/-- Takes a word off the front. A date and a time may be divided by a blank. -/
def word (cs : List Char) : List Char × List Char :=
  let first := cs.takeWhile isWordChar
  let rest := cs.drop first.length
  match rest with
  | ' ' :: c :: more =>
    if date? first == some [] && Text.isDecimal c then
      let second := (c :: more).takeWhile isWordChar
      (first ++ ' ' :: second, (c :: more).drop second.length)
    else
      (first, rest)
  | _ => (first, rest)

/-- The key under which a date is kept in a structured value. -/
def dateKey : String := "$__toml_private_datetime"

/-- The value of a word: a truth value, a number or a date. -/
def wordValue? (cs : List Char) : Option Json :=
  if cs == "true".toList then some (.bool true)
  else if cs == "false".toList then some (.bool false)
  else
    match integer? cs with
    | some n => some (.int n)
    | none =>
      if isFloat cs then some (.real (String.ofList cs))
      else if isDateTime cs then some (.obj [(dateKey, .str (String.ofList cs))])
      else none

end DeclSplit.Toml

/-!
From the bytes of a file to its text. A byte-order mark decides the encoding and is removed once.
Without a mark the bytes have to be UTF-8 and free of zero bytes. Bytes that are not well formed in
their encoding are no text at all: nothing is replaced.
-/
namespace DeclSplit.Text

/-- The encodings in which text is recognised. -/
inductive Encoding where
  | utf8
  | utf16le
  | utf16be
deriving DecidableEq, Repr

/-- The usual name of an encoding. -/
def Encoding.label : Encoding → String
  | utf8 => "UTF-8"
  | utf16le => "UTF-16LE"
  | utf16be => "UTF-16BE"

/-- A text and the encoding it was read from. -/
structure Decoded where
  text : String
  encoding : Encoding
deriving DecidableEq, Repr

/-- The text of which these bytes are the UTF-8 form. -/
def decodeUtf8 (bytes : List UInt8) : Option String :=
  String.fromUTF8? ⟨bytes.toArray⟩

/-- The 16-bit units of which these bytes are the pairs, `join` making a unit of two bytes. -/
def pairUnits (join : UInt8 → UInt8 → Nat) : List UInt8 → Option (List Nat)
  | [] => some []
  | [_] => none
  | a :: b :: rest => (pairUnits join rest).map (join a b :: ·)

/-- A unit that starts a surrogate pair. -/
def isHighSurrogate (unit : Nat) : Bool := 0xD800 ≤ unit && unit < 0xDC00

/-- A unit that ends a surrogate pair. -/
def isLowSurrogate (unit : Nat) : Bool := 0xDC00 ≤ unit && unit < 0xE000

/-- The characters that 16-bit units stand for. A surrogate without its partner stands for none. -/
def decodeUnits : List Nat → Option (List Char)
  | [] => some []
  | high :: rest =>
    if isHighSurrogate high then
      match rest with
      | low :: rest =>
        if isLowSurrogate low then
          let code := 0x10000 + (high - 0xD800) * 0x400 + (low - 0xDC00)
          (decodeUnits rest).map (Char.ofNat code :: ·)
        else
          none
      | [] => none
    else if isLowSurrogate high then
      none
    else
      (decodeUnits rest).map (Char.ofNat high :: ·)

/-- The text of which these bytes are the UTF-16 form, `join` making a unit of two bytes. -/
def decodeUtf16 (join : UInt8 → UInt8 → Nat) (bytes : List UInt8) : Option String := do
  let units ← pairUnits join bytes
  let chars ← decodeUnits units
  return String.ofList chars

/-- The unit of two bytes, the low one first. -/
def littleEndian (a b : UInt8) : Nat := a.toNat + 256 * b.toNat

/-- The unit of two bytes, the high one first. -/
def bigEndian (a b : UInt8) : Nat := 256 * a.toNat + b.toNat

/-- The text of which these bytes are the form in an encoding, without a mark. -/
def Encoding.decode? : Encoding → List UInt8 → Option String
  | utf8 => decodeUtf8
  | utf16le => decodeUtf16 littleEndian
  | utf16be => decodeUtf16 bigEndian

/-- The byte-order mark of an encoding. -/
def Encoding.mark : Encoding → List UInt8
  | utf8 => [0xEF, 0xBB, 0xBF]
  | utf16le => [0xFF, 0xFE]
  | utf16be => [0xFE, 0xFF]

/-- The encoding with whose mark the bytes begin. -/
def Encoding.ofMark? (bytes : List UInt8) : Option Encoding :=
  [utf8, utf16le, utf16be].find? (·.mark.isPrefixOf bytes)

/-- Reads bytes in an encoding. Bytes that begin with a mark are read in the encoding of the mark, and
without it. -/
def decodeIn (encoding : Encoding) (bytes : List UInt8) : Option Decoded :=
  match Encoding.ofMark? bytes with
  | some marked => (marked.decode? (bytes.drop marked.mark.length)).map (⟨·, marked⟩)
  | none => (encoding.decode? bytes).map (⟨·, encoding⟩)

/-- The text that the bytes of a file hold, or none if they hold no text. -/
def decode (bytes : List UInt8) : Option Decoded :=
  match Encoding.ofMark? bytes with
  | some encoding => decodeIn encoding bytes
  | none =>
    if bytes.contains 0 then
      none
    else
      -- Most files are well formed and need no second attempt.
      match decodeUtf8 bytes with
      | some text => some ⟨text, .utf8⟩
      | none => decodeIn .utf8 bytes

end DeclSplit.Text

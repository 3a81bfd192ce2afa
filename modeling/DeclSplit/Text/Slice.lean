/-!
Parts of a text given by byte offsets into its UTF-8 form.
-/
namespace DeclSplit.Text

/-- The text at the bytes from `start` up to `stop`. A range that is reversed, that leaves the text
or that cuts a character holds no text, and the result is then empty. -/
def slice (s : String) (start stop : Nat) : String :=
  if start ≤ stop ∧ stop ≤ s.utf8ByteSize then
    (String.fromUTF8? (s.toByteArray.extract start stop)).getD ""
  else
    ""

/-- Whether `pattern` occurs in the characters somewhere. -/
def occursIn (pattern : List Char) : List Char → Bool
  | [] => pattern.isEmpty
  | c :: cs => pattern.isPrefixOf (c :: cs) || occursIn pattern cs

end DeclSplit.Text

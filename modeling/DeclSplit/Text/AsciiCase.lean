/-!
Case mapping on the letters A to Z alone. Every other character is left as it is.
-/
namespace DeclSplit.Text

/-- Maps A to Z onto a to z. -/
def lowerAsciiChar (c : Char) : Char :=
  if 'A' ≤ c ∧ c ≤ 'Z' then Char.ofNat (c.toNat + 32) else c

/-- Maps the letters A to Z of a text onto a to z. -/
def lowerAscii (s : String) : String :=
  String.ofList (s.toList.map lowerAsciiChar)

/-- Two texts are the same up to the case of the letters A to Z. -/
def equalIgnoringCase (a b : String) : Bool :=
  lowerAscii a == lowerAscii b

end DeclSplit.Text

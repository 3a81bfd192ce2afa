/-!
Whole numbers written in decimal digits.
-/
namespace DeclSplit.Text

/-- Whether a character is one of the ten decimal digits. -/
def isDecimal (c : Char) : Bool := 48 ≤ c.toNat && c.toNat ≤ 57

/-- The number that decimal digits stand for, after digits that stand for `n`. -/
def digitsValue (n : Nat) (digits : List Char) : Nat :=
  digits.foldl (fun n c => 10 * n + (c.toNat - 48)) n

/-- The number of values of 64 bits. -/
def wordLimit : Nat := 18446744073709551616

/-- The number of a text that holds decimal digits only, after a plus sign or none, and that is below
2^64. -/
def word? (s : String) : Option Nat :=
  let digits :=
    match s.toList with
    | '+' :: rest => rest
    | all => all
  if !digits.isEmpty && digits.all isDecimal && digitsValue 0 digits < wordLimit then
    some (digitsValue 0 digits)
  else
    none

/-- The truth value of a text, `true` or `false`. -/
def bool? (s : String) : Option Bool :=
  if s = "true" then some true
  else if s = "false" then some false
  else none

end DeclSplit.Text

/-!
# Decimal numbers

Natural numbers written with the ten decimal digits, as command lines give them and as file names
carry them.
-/

namespace ShaderShrink.Text

/-- The number that a non-empty list of decimal digits stands for. -/
def ofDigits? (digits : List Char) : Option Nat :=
  if digits.isEmpty || !digits.all Char.isDigit then none else some (Nat.ofDigitChars 10 digits 0)

/-- Reads a number below `bound`: one plus sign may stand in front of the digits, and nothing else
may stand anywhere. -/
def readNatBelow? (bound : Nat) (text : String) : Option Nat :=
  let digits :=
    match text.toList with
    | '+' :: digits => digits
    | digits => digits
  (ofDigits? digits).filter (· < bound)

/-- The decimal digits of a number, with zeros in front up to `width` of them. -/
def padded (width n : Nat) : String :=
  let digits := Nat.toDigits 10 n
  String.ofList (List.replicate (width - digits.length) '0' ++ digits)

end ShaderShrink.Text

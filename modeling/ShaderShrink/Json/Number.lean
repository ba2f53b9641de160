import ShaderShrink.Json.Basic

/-!
# Numbers in JSON texts

A number is a whole part without needless zeros, perhaps a fraction, and perhaps an exponent.
`readNumber` tells apart integers, other numbers, and numbers that are too large for double
precision.

Whether a number is too large is decided by two roundings and a product, not by its exact size: the
digits are gathered as long as they fit a word of 64 bits (`gather`), and the significand that they
make and the power of ten that is left are both rounded to the precision of a double before they are
multiplied (`exceedsDouble`).
-/

namespace ShaderShrink.Json

/-- What a number is. -/
inductive Numeral where
  /-- Digits alone, other than `-0`. -/
  | int (value : Int)
  /-- A number with a fraction or an exponent, or `-0`. -/
  | fraction
  /-- A number beyond the range of double precision. -/
  | tooLarge
  deriving DecidableEq, Repr

/-! ## Size -/

/-- The number of values of a word of 32 bits. -/
def word32 : Nat := 0x100000000

/-- The number of values of a word of 64 bits. -/
def word64 : Nat := 0x10000000000000000

/-- The number of bits of the significand of a double. -/
def doublePrecision : Nat := 53

/-- The smallest number that rounds to infinity in double precision. -/
def doubleBound : Nat := Nat.pow 2 1024 - Nat.pow 2 970

/-- The largest power of ten that is a double. -/
def largestExponent : Nat := 308

/-- The nearest natural number with a significand of a double; of two that are equally near, the one
with the even significand. -/
def roundToDouble (n : Nat) : Nat :=
  let unit := Nat.pow 2 (n.log2 + 1 - doublePrecision)
  let below := n / unit
  let excess := 2 * (n % unit)
  if excess > unit ∨ excess = unit ∧ below % 2 = 1 then (below + 1) * unit else below * unit

/-- Whether a significand that fits a word of 64 bits is too large for double precision when it is
multiplied with a power of ten. -/
def exceedsDouble (significand : Nat) (exponent : Int) : Bool :=
  if significand = 0 ∨ exponent ≤ 0 then false
  else if exponent > largestExponent then true
  else doubleBound ≤ roundToDouble significand * roundToDouble (Nat.pow 10 exponent.toNat)

/-- Appends digits to a significand as long as it fits a word of 64 bits. The second component is
the number of digits that are left over. -/
def gather (significand : Nat) : List Char → Nat × Nat
  | [] => (significand, 0)
  | c :: rest =>
    let longer := significand * 10 + (c.toNat - '0'.toNat)
    if longer < word64 then gather longer rest else (significand, rest.length + 1)

/-- Whether the number with these digits before and after the point and this exponent is too large
for double precision. A digit that is left over before the point counts as a power of ten, and one
after the point does not count. -/
def isTooLarge (whole decimals : List Char) (exponent : Int) : Bool :=
  let (significand, left) := gather 0 whole
  let (significand, dropped) := gather significand decimals
  exceedsDouble significand (exponent + left - (decimals.length - dropped : Nat))

/-! ## Form -/

/-- Splits off the digits at the front of a text. -/
def spanDigits (s : List Char) : List Char × List Char :=
  (s.takeWhile Char.isDigit, s.dropWhile Char.isDigit)

/-- Reads one digit or more. -/
def readDigits (s : List Char) : Except Failure (List Char × List Char) :=
  match spanDigits s with
  | ([], rest) => .error (stuck rest)
  | digits => .ok digits

/-- Reads the digits in front of a fraction: a single zero, or digits that start with another
one. -/
def readWhole (s : List Char) : Except Failure (List Char × List Char) :=
  match readDigits s with
  | .ok ('0' :: _ :: _, _) => .error .malformed
  | result => result

/-- Reads a fraction, if there is one. -/
def readFraction : List Char → Except Failure (Option (List Char) × List Char)
  | '.' :: s => (readDigits s).map fun (digits, rest) => (some digits, rest)
  | s => .ok (none, s)

/-- Reads the sign and the digits of an exponent. -/
def readSigned : List Char → Except Failure (Int × List Char)
  | '-' :: s =>
    (readDigits s).map fun (digits, rest) => (-(Nat.ofDigitChars 10 digits 0 : Int), rest)
  | '+' :: s =>
    (readDigits s).map fun (digits, rest) => ((Nat.ofDigitChars 10 digits 0 : Int), rest)
  | s => (readDigits s).map fun (digits, rest) => ((Nat.ofDigitChars 10 digits 0 : Int), rest)

/-- Reads an exponent, if there is one. -/
def readExponent : List Char → Except Failure (Option Int × List Char)
  | 'e' :: s => (readSigned s).map fun (n, rest) => (some n, rest)
  | 'E' :: s => (readSigned s).map fun (n, rest) => (some n, rest)
  | s => .ok (none, s)

/-- The number with the given sign, digits before and after the point and exponent. -/
def numeral (negative : Bool) (whole : List Char) (decimals : Option (List Char))
    (exponent : Option Int) : Numeral :=
  if isTooLarge whole (decimals.getD []) (exponent.getD 0) then .tooLarge
  else if decimals.isSome || exponent.isSome then .fraction
  else
    match negative, Nat.ofDigitChars 10 whole 0 with
    | false, n => .int n
    | true, 0 => .fraction
    | true, n => .int (-n)

/-- Reads a number after its sign. -/
def readUnsigned (negative : Bool) (s : List Char) : Except Failure (Numeral × List Char) := do
  let (whole, s) ← readWhole s
  let (decimals, s) ← readFraction s
  let (exponent, s) ← readExponent s
  return (numeral negative whole decimals exponent, s)

/-- Reads a number. -/
def readNumber : List Char → Except Failure (Numeral × List Char)
  | '-' :: s => readUnsigned true s
  | s => readUnsigned false s

end ShaderShrink.Json

import ShaderShrink.Json.Draft
import ShaderShrink.Json.Number

/-!
# Reading JSON texts

`Json.readText` reads a text into its draft and gives what follows the value; a reader gives no rest
if the text went wrong inside what it reads. `Json.parse` is for texts that must hold one value and
nothing else but white space.

The readers of values, items and members call each other, and of two calls inside each other at
least one consumes a character, so twice the number of characters bounds the recursion. `readText`
starts with that bound.
-/

namespace ShaderShrink.Json

/-- The white space that may stand between the parts of a JSON text. -/
def isSpace (c : Char) : Bool := c = ' ' || c = '\n' || c = '\r' || c = '\t'

/-- The rest of a text after white space. -/
def skipSpace (s : List Char) : List Char := s.dropWhile isSpace

/-- Reads a fixed word. -/
def readWord : List Char → List Char → Except Failure (List Char)
  | [], s => .ok s
  | w :: word, c :: rest => if c = w then readWord word rest else .error .malformed
  | _ :: _, [] => .error .truncated

/-! ## Strings -/

/-- The value of a hexadecimal digit. -/
def hexValue? (c : Char) : Option Nat :=
  if '0' ≤ c ∧ c ≤ '9' then some (c.toNat - '0'.toNat)
  else if 'a' ≤ c ∧ c ≤ 'f' then some (c.toNat - 'a'.toNat + 10)
  else if 'A' ≤ c ∧ c ≤ 'F' then some (c.toNat - 'A'.toNat + 10)
  else none

/-- The value of four hexadecimal digits. -/
def hexUnit? (a b c d : Char) : Option Nat := do
  let a ← hexValue? a
  let b ← hexValue? b
  let c ← hexValue? c
  let d ← hexValue? d
  pure (((a * 16 + b) * 16 + c) * 16 + d)

/-- The character that an escape of one letter stands for. -/
def unescape? (c : Char) : Option Char :=
  if c = '"' ∨ c = '\\' ∨ c = '/' then some c
  else if c = 'b' then some '\x08'
  else if c = 'f' then some '\x0c'
  else if c = 'n' then some '\n'
  else if c = 'r' then some '\r'
  else if c = 't' then some '\t'
  else none

/-- Whether a UTF-16 unit is the first half of a surrogate pair. -/
def isHighSurrogate (unit : Nat) : Bool := 0xD800 ≤ unit && unit < 0xDC00

/-- Whether a UTF-16 unit is the second half of a surrogate pair. -/
def isLowSurrogate (unit : Nat) : Bool := 0xDC00 ≤ unit && unit < 0xE000

/-- The character of a surrogate pair. -/
def ofSurrogates (high low : Nat) : Char :=
  Char.ofNat (0x10000 + (high - 0xD800) * 0x400 + (low - 0xDC00))

/-- The failure of a `\u` escape whose digits do not go on as they should: the text breaks off if
fewer than four bytes are left of it. -/
def stuckUnit (s : List Char) : Failure :=
  if (s.take 4).foldr (fun c bytes => c.utf8Size + bytes) 0 < 4 then .truncated else .malformed

/-- What a string says. -/
inductive Chars where
  | text (chars : List Char)
  | defect (defect : Defect)
  deriving Repr

/-- A string that goes wrong. A reader that takes it in may have failed before at half of a
surrogate pair. -/
def brokenString (text : Except Failure (List Char)) (failure : Failure) : Chars :=
  match text with
  | .ok _ => .defect (.all failure)
  | .error taking => .defect ⟨some failure, taking, taking⟩

/-- A string that was read up to its closing quote. -/
def closedString : Except Failure (List Char) → Chars
  | .ok chars => .text chars.reverse
  | .error taking => .defect ⟨none, taking, taking⟩

/-- Adds a character to a string. -/
def addChar (c : Char) (text : Except Failure (List Char)) : Except Failure (List Char) :=
  text.map (c :: ·)

/-- Marks a string as one that has half of a surrogate pair. -/
def addHalf (text : Except Failure (List Char)) : Except Failure (List Char) :=
  text.bind fun _ => .error .malformed

/-- Reads the rest of a string up to its closing quote. `text` holds the characters read so far,
last one first, or the failure of a reader that takes them in. -/
def readChars (text : Except Failure (List Char)) : List Char → Chars × Option (List Char)
  | [] => (brokenString text .truncated, none)
  | '"' :: rest => (closedString text, some rest)
  | '\\' :: 'u' :: a :: b :: c :: d :: rest =>
    match hexUnit? a b c d with
    | none => (brokenString text (stuckUnit (a :: b :: c :: d :: rest)), none)
    | some unit =>
      if isHighSurrogate unit then
        match rest with
        | [] => (brokenString text .truncated, none)
        | ['\\'] => (brokenString text .truncated, none)
        | '\\' :: 'u' :: a' :: b' :: c' :: d' :: rest' =>
          match hexUnit? a' b' c' d' with
          | none => (brokenString text (stuckUnit (a' :: b' :: c' :: d' :: rest')), none)
          | some low =>
            if isLowSurrogate low then readChars (addChar (ofSurrogates unit low) text) rest'
            else readChars (addHalf text) rest'
        | '\\' :: 'u' :: rest' => (brokenString text (stuckUnit rest'), none)
        | rest => readChars (addHalf text) rest
      else if isLowSurrogate unit then readChars (addHalf text) rest
      else readChars (addChar (Char.ofNat unit) text) rest
  | '\\' :: 'u' :: rest => (brokenString text (stuckUnit rest), none)
  | '\\' :: c :: rest =>
    match unescape? c with
    | none => (brokenString text .malformed, none)
    | some c => readChars (addChar c text) rest
  | ['\\'] => (brokenString text .truncated, none)
  | c :: rest =>
    if c.toNat < 0x20 then (brokenString text .malformed, none)
    else readChars (addChar c text) rest

/-- Reads a string after its opening quote. -/
def readString (s : List Char) : Chars × Option (List Char) := readChars (.ok []) s

/-- A string as a draft. -/
def Chars.draft : Chars → Draft
  | .text chars => .str (String.ofList chars)
  | .defect d => .defect d

/-- A string as the key of a member. -/
def Chars.key : Chars → Key
  | .text chars => .name (String.ofList chars)
  | .defect d => .defect d

/-! ## Values without parts -/

/-- A word as a draft, given the text behind it. -/
def wordDraft (v : Draft) : Except Failure (List Char) → Draft × Option (List Char)
  | .ok rest => (v, some rest)
  | .error failure => (.defect ⟨some failure, failure, .malformed⟩, none)

/-- A number as a draft. -/
def Numeral.draft : Numeral → Draft
  | .int n => .int n
  | .fraction => .fraction
  | .tooLarge => .defect ⟨none, .malformed, .malformed⟩

/-- A number as a draft, with the text behind it. Where a number breaks off, a reader that passes
over it does not say that the text ends too early. -/
def numberDraft : Except Failure (Numeral × List Char) → Draft × Option (List Char)
  | .ok (n, rest) => (n.draft, some rest)
  | .error failure => (.defect ⟨some .malformed, failure, .malformed⟩, none)

/-- Reads a value that has no parts, in front of which there is no white space. -/
def readScalar : List Char → Draft × Option (List Char)
  | 'n' :: rest => wordDraft .null (readWord "ull".toList rest)
  | 't' :: rest => wordDraft (.bool true) (readWord "rue".toList rest)
  | 'f' :: rest => wordDraft (.bool false) (readWord "alse".toList rest)
  | '"' :: rest => ((readString rest).1.draft, (readString rest).2)
  | s =>
    if s.head?.any fun c => c = '-' || c.isDigit then numberDraft (readNumber s)
    else (.defect (.missing s), none)

/-- The failure of a decoder that expects another form of value. An array or object has the wrong
form whatever is in it. -/
def mismatch : Draft → Failure
  | .defect d => d.taking
  | _ => .shape

/-- What stands where a key should be. A reader that expects a name there first reads the value that
it finds. -/
def missingKey (s : List Char) : Key :=
  let naming :=
    match s with
    | '[' :: _ | '\x7b' :: _ => .shape
    | s => mismatch (readScalar s).1
  .defect ⟨some (stuck s), stuck s, naming⟩

/-! ## Values -/

mutual

/-- Reads a value and the white space in front of it. -/
def readValue : Nat → List Char → Draft × Option (List Char)
  | 0, _ => (.defect (.all .truncated), none)
  | fuel + 1, s =>
    match skipSpace s with
    | '[' :: rest =>
      match skipSpace rest with
      | [] => (.arr [] (some .truncated), none)
      | ']' :: rest => (.arr [] none, some rest)
      | rest =>
        let (items, ending, rest) := readItems fuel rest
        (.arr items ending, rest)
    | '\x7b' :: rest =>
      match skipSpace rest with
      | [] => (.obj [] (some .truncated), none)
      | '\x7d' :: rest => (.obj [] none, some rest)
      | rest =>
        let (members, ending, rest) := readMembers fuel rest
        (.obj members ending, rest)
    | s => readScalar s

/-- Reads the items of an array up to its closing bracket. The second component is the ending of the
array; nothing is read behind an item that goes wrong. -/
def readItems : Nat → List Char → List Draft × Option Failure × Option (List Char)
  | 0, _ => ([], some .truncated, none)
  | fuel + 1, s =>
    match readValue fuel s with
    | (v, none) => ([v], none, none)
    | (v, some s) =>
      match skipSpace s with
      | ']' :: rest => ([v], none, some rest)
      | ',' :: rest =>
        let (items, ending, rest) := readItems fuel rest
        (v :: items, ending, rest)
      | rest => ([v], some (stuck rest), none)

/-- Reads the members of an object up to its closing brace. The second component is the ending of
the object; nothing is read behind a member that goes wrong. -/
def readMembers :
    Nat → List Char → List (Key × Draft) × Option Failure × Option (List Char)
  | 0, _ => ([], some .truncated, none)
  | fuel + 1, s =>
    match skipSpace s with
    | '"' :: rest =>
      match readString rest with
      | (key, none) => ([(key.key, .null)], none, none)
      | (key, some s) =>
        match skipSpace s with
        | ':' :: rest =>
          match readValue fuel rest with
          | (v, none) => ([(key.key, v)], none, none)
          | (v, some s) =>
            match skipSpace s with
            | '\x7d' :: rest => ([(key.key, v)], none, some rest)
            | ',' :: rest =>
              let (members, ending, rest) := readMembers fuel rest
              ((key.key, v) :: members, ending, rest)
            | rest => ([(key.key, v)], some (stuck rest), none)
        | rest => ([(key.key, .defect (.missing rest))], none, none)
    | rest => ([(missingKey rest, .null)], none, none)

end

/-- Reads a text: its draft, and what follows the value. -/
def readText (text : String) : Draft × Option (List Char) :=
  readValue (2 * text.length + 1) text.toList

/-- Whether nothing but white space follows a value. -/
def endsText (rest : Option (List Char)) : Bool := rest.any fun s => (skipSpace s).isEmpty

/-- The value that a text holds. -/
def parse (text : String) : Except Failure Json := do
  let (v, rest) := readText text
  let v ← v.value
  if endsText rest then return v else throw .malformed

end ShaderShrink.Json

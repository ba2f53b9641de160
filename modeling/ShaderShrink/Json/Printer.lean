import ShaderShrink.Json.Basic

/-!
# JSON texts

The two ways in which a JSON value is written: `Json.compact` without any white space, and
`Json.pretty` with a line per member or item, two spaces of indentation per level and a space after
each colon. Both write strings with `Json.quote`, which escapes the quote, the backslash and the
characters below U+0020 and leaves all others as they are.
-/

namespace ShaderShrink.Json

/-- A hexadecimal digit in lower case. -/
def hexDigit (n : Nat) : Char := Nat.digitChar n

/-- How a character is written inside a string. -/
def escape (c : Char) : List Char :=
  if c = '"' then ['\\', '"']
  else if c = '\\' then ['\\', '\\']
  else if c = '\n' then ['\\', 'n']
  else if c = '\r' then ['\\', 'r']
  else if c = '\t' then ['\\', 't']
  else if c = '\x08' then ['\\', 'b']
  else if c = '\x0c' then ['\\', 'f']
  else if c.toNat < 0x20 then
    ['\\', 'u', '0', '0', hexDigit (c.toNat / 16), hexDigit (c.toNat % 16)]
  else [c]

/-- A string between quotes. -/
def quote (text : String) : String :=
  String.ofList ('"' :: text.toList.flatMap escape ++ ['"'])

/-- The text of a value that has no parts. -/
def scalar : Json → String
  | .bool true => "true"
  | .bool false => "false"
  | .int n => toString n
  | .str text => quote text
  | _ => "null"

mutual

/-- A value without any white space. -/
def compact : Json → String
  | .arr items => "[" ++ compactItems items ++ "]"
  | .obj members => "\x7b" ++ compactMembers members ++ "\x7d"
  | v => scalar v

/-- Some values with commas between them. -/
def compactItems : List Json → String
  | [] => ""
  | [v] => v.compact
  | v :: rest => v.compact ++ "," ++ compactItems rest

/-- Some members with commas between them. -/
def compactMembers : List (String × Json) → String
  | [] => ""
  | [(key, v)] => quote key ++ ":" ++ v.compact
  | (key, v) :: rest => quote key ++ ":" ++ v.compact ++ "," ++ compactMembers rest

end

/-- A new line at a level of indentation. -/
def newline (level : Nat) : String := String.ofList ('\n' :: List.replicate (2 * level) ' ')

mutual

/-- A value with one item or member per line, the lines of its parts being one level deeper than
`level`. -/
def prettyAt (level : Nat) : Json → String
  | .arr [] => "[]"
  | .arr items => "[" ++ prettyItems (level + 1) items ++ newline level ++ "]"
  | .obj [] => "\x7b\x7d"
  | .obj members => "\x7b" ++ prettyMembers (level + 1) members ++ newline level ++ "\x7d"
  | v => scalar v

/-- Some values, each on a line of its own. -/
def prettyItems (level : Nat) : List Json → String
  | [] => ""
  | [v] => newline level ++ v.prettyAt level
  | v :: rest => newline level ++ v.prettyAt level ++ "," ++ prettyItems level rest

/-- Some members, each on a line of its own. -/
def prettyMembers (level : Nat) : List (String × Json) → String
  | [] => ""
  | [(key, v)] => newline level ++ quote key ++ ": " ++ v.prettyAt level
  | (key, v) :: rest =>
    newline level ++ quote key ++ ": " ++ v.prettyAt level ++ "," ++ prettyMembers level rest

end

/-- A value with one item or member per line. -/
def pretty (v : Json) : String := v.prettyAt 0

end ShaderShrink.Json

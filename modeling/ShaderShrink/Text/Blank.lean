/-!
# Blank characters

The characters with Unicode's White_Space property, and what the program does with them: it drops
them when it asks whether a text says anything, and it collapses them when a piece of program text
has to fit on one line.
-/

namespace ShaderShrink.Text

/-- The code points with the White_Space property, in increasing order. -/
def blankCodes : List Nat :=
  [0x09, 0x0A, 0x0B, 0x0C, 0x0D, 0x20, 0x85, 0xA0, 0x1680, 0x2000, 0x2001, 0x2002, 0x2003, 0x2004,
    0x2005, 0x2006, 0x2007, 0x2008, 0x2009, 0x200A, 0x2028, 0x2029, 0x202F, 0x205F, 0x3000]

/-- Whether `c` has the White_Space property. -/
def isBlank (c : Char) : Bool := blankCodes.contains c.toNat

/-- Whether a text has no character outside the White_Space property. -/
def isBlankText (text : String) : Bool := text.toList.all isBlank

/-- The maximal blank-free pieces of a text, from left to right; `word` holds the characters of the
piece that is being read, last one first. -/
def wordsFrom (word : List Char) : List Char → List (List Char)
  | [] => if word.isEmpty then [] else [word.reverse]
  | c :: rest =>
    if isBlank c then
      if word.isEmpty then wordsFrom [] rest else word.reverse :: wordsFrom [] rest
    else
      wordsFrom (c :: word) rest

/-- The maximal blank-free pieces of a text, from left to right. -/
def words (text : String) : List String := (wordsFrom [] text.toList).map String.ofList

/-- A text on one line: its words with one space between neighbours. -/
def oneLine (text : String) : String := " ".intercalate (words text)

end ShaderShrink.Text

import ShaderShrink.Job.Basic
import ShaderShrink.Text.Blank
import ShaderShrink.Text.Lines

/-!
# Files of pairs

A file of pairs has one pair per line, in compact JSON. Blank lines are passed over.
-/

namespace ShaderShrink

open Json (Failure)

/-- A line that is not a pair. -/
structure PairsError where
  /-- The number of the line; the first line has number one, and blank lines are counted. -/
  line : Nat
  cause : Failure
  deriving DecidableEq, Repr

namespace ProgramPair

/-- Reads the pairs in some lines, the first of which has the given number. -/
def readLines (number : Nat) : List String → Except PairsError (List ProgramPair)
  | [] => .ok []
  | line :: rest =>
    if Text.isBlankText line then readLines (number + 1) rest
    else
      match decode line with
      | .error cause => .error ⟨number, cause⟩
      | .ok pair => (readLines (number + 1) rest).map (pair :: ·)

/-- Reads the pairs in the text of a file. -/
def readAll (text : String) : Except PairsError (List ProgramPair) :=
  readLines 1 (Text.lines text)

end ProgramPair

end ShaderShrink

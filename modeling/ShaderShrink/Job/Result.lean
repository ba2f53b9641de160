import ShaderShrink.Json.Decode
import ShaderShrink.Json.Printer
import ShaderShrink.Text.Search

/-!
# Results of jobs

How a run of a job ended and what it logged. Every end but success is a fault, and faults are what
the pipeline collects and minimizes.
-/

namespace ShaderShrink

open Json (Decoder)

/-- How a run ended. -/
inductive JobStatus where
  | success
  | crash
  | compileError
  | linkError
  | timeout
  | unexpectedError
  | sanityError
  | nondet
  deriving DecidableEq, Repr, Inhabited

namespace JobStatus

/-- The name of a status, in files and in directory names. -/
def name : JobStatus → String
  | .success => "SUCCESS"
  | .crash => "CRASH"
  | .compileError => "COMPILE_ERROR"
  | .linkError => "LINK_ERROR"
  | .timeout => "TIMEOUT"
  | .unexpectedError => "UNEXPECTED_ERROR"
  | .sanityError => "SANITY_ERROR"
  | .nondet => "NONDET"

/-- All statuses. -/
def all : List JobStatus :=
  [.success, .crash, .compileError, .linkError, .timeout, .unexpectedError, .sanityError, .nondet]

/-- Whether the run went wrong. -/
def isFault (s : JobStatus) : Bool := s ≠ .success

/-- Two texts that differ in the case of ASCII letters at most. -/
def sameLetters (a b : String) : Bool := a.toList.map Char.toLower = b.toList.map Char.toLower

/-- The status with the given name, in upper or lower case. -/
def ofName? (text : String) : Option JobStatus := all.find? fun s => sameLetters s.name text

/-- What is said about a text that names no status. -/
def unknownMessage (text : String) : String := "unknown job status `" ++ text ++ "`"

/-- A status as a JSON value. -/
def toJson (s : JobStatus) : Json := .str s.name

/-- Decodes a status. -/
def ofJson : Decoder JobStatus := Json.choice (all.map fun s => (s.name, s))

end JobStatus

/-- What a run of a job gave. -/
structure JobResult where
  status : JobStatus
  log : String
  deriving DecidableEq, Repr, Inhabited

namespace JobResult

/-- Whether the log has one of the needles as a substring; empty needles do not count. -/
def logsAnyOf (r : JobResult) (needles : List String) : Bool :=
  needles.any fun needle => !needle.isEmpty && Text.mentions r.log needle

/-- A result as a JSON value. -/
def toJson (r : JobResult) : Json := .obj [("status", r.status.toJson), ("log", .str r.log)]

/-- Decodes a result. -/
def ofJson : Decoder JobResult := Json.record ["status", "log"] <|
  JobResult.mk <$> Json.required "status" JobStatus.ofJson
    <*> Json.withDefault "log" "" Json.string

end JobResult

end ShaderShrink

import ShaderShrink.Job.Basic
import ShaderShrink.Job.Result

/-!
# Verdicts and oracles

A reduction asks an oracle about the texts of candidate jobs. The answers are verdicts, and asking
may change the oracle's state, so an oracle over states of type `σ` is a function from a text and a
state to a verdict and the state behind it.

The oracle of the pipeline runs candidates: a candidate is interesting if it still shows the fault
that the unreduced job showed (`Fault.classify`).
-/

namespace ShaderShrink

open Json (Decoder)

/-! ## Verdicts -/

/-- What an oracle says about a candidate. -/
inductive Verdict where
  | interesting
  | notInteresting
  /-- The candidate is not a valid job. -/
  | invalid
  /-- The oracle could not tell. -/
  | executionError
  deriving DecidableEq, Repr, Inhabited

namespace Verdict

/-- The name of a verdict. -/
def name : Verdict → String
  | .interesting => "interesting"
  | .notInteresting => "not_interesting"
  | .invalid => "invalid"
  | .executionError => "execution_error"

/-- All verdicts. -/
def all : List Verdict := [.interesting, .notInteresting, .invalid, .executionError]

/-- A verdict as a JSON value. -/
def toJson (v : Verdict) : Json := .str v.name

/-- Decodes a verdict. -/
def ofJson : Decoder Verdict := Json.choice (all.map fun v => (v.name, v))

end Verdict

/-- An oracle with states of type `σ`. -/
abbrev Oracle (σ : Type) := String → σ → Verdict × σ

/-! ## Runners -/

/-- Why a job could not be run. -/
inductive OracleError where
  | transport (text : String)
  | status (code : Nat) (body : String)
  | decode (text : String)
  | config (text : String)
  deriving DecidableEq, Repr

namespace OracleError

/-- The name of a kind of errors. -/
def code : OracleError → String
  | .transport _ => "oracle_transport"
  | .status .. => "oracle_status"
  | .decode _ => "oracle_decode"
  | .config _ => "oracle_config"

/-- What is said about an error. -/
def message : OracleError → String
  | .transport text => "oracle transport failure: " ++ text
  | .status code body => "oracle returned HTTP " ++ toString code ++ ": " ++ body
  | .decode text => "oracle response could not be decoded: " ++ text
  | .config text => "oracle client configuration invalid: " ++ text

end OracleError

/-- How a runner answers. -/
inductive RunReply where
  | result (result : JobResult)
  | failed (error : OracleError)
  /-- The runner broke down, and whoever asked breaks down with it. -/
  | died
  deriving DecidableEq, Repr, Inhabited

/-- What runs jobs, given by their texts, in a world of type `σ`. -/
structure Runner (σ : Type) where
  /-- Whether a job is worth running. -/
  validate : String → σ → Bool × σ
  run : String → σ → RunReply × σ

/-! ## Reproduction of a fault -/

/-- The fault that candidates have to show. -/
structure Fault where
  status : JobStatus
  /-- A text that the log has to mention. -/
  signature : Option String
  /-- Texts that belong to other faults. -/
  excluded : List String
  deriving DecidableEq, Repr, Inhabited

namespace Fault

/-- The fault of ending with a status, whatever the log says. -/
def ofStatus (status : JobStatus) : Fault := ⟨status, none, []⟩

/-- Asks for a text in the log. The empty text asks for nothing. -/
def withSignature (f : Fault) (signature : String) : Fault :=
  { f with signature := if signature.isEmpty then none else some signature }

/-- Rules out some more texts in the log. Empty texts rule out nothing. -/
def withExcluded (f : Fault) (signatures : List String) : Fault :=
  { f with excluded := f.excluded ++ signatures.filter (!·.isEmpty) }

/-- Whether a result shows the fault. -/
def shows (f : Fault) (r : JobResult) : Bool :=
  r.status = f.status && f.signature.all (Text.mentions r.log)
    && !f.excluded.any (Text.mentions r.log)

end Fault

/-- What a fault oracle keeps: the world of its runner, how often it ran a job, and whether the
runner broke down. -/
structure FaultOracle (σ : Type) where
  world : σ
  runs : Nat
  died : Bool

namespace FaultOracle

/-- An oracle that has not been asked yet. -/
def start {σ : Type} (world : σ) : FaultOracle σ := ⟨world, 0, false⟩

/-- Asks whether a candidate shows a fault. A candidate is validated before it is run. After a
breakdown of the runner nothing is run any more. -/
def classify {σ : Type} (runner : Runner σ) (fault : Fault) : Oracle (FaultOracle σ) :=
  fun text s =>
    if s.died then (.executionError, s)
    else
      match runner.validate text s.world with
      | (false, world) => (.invalid, { s with world })
      | (true, world) =>
        let (reply, world) := runner.run text world
        let s := { s with world, runs := s.runs + 1 }
        match reply with
        | .result r => (if fault.shows r then .interesting else .notInteresting, s)
        | .failed _ => (.executionError, s)
        | .died => (.executionError, { s with died := true })

end FaultOracle

end ShaderShrink

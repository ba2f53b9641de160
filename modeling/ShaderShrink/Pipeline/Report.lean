import ShaderShrink.Job.Result
import ShaderShrink.Reduction.Report
import ShaderShrink.Text.WordSet
import ShaderShrink.Archive

/-!
# Limits and reports of workers

What a worker is told (`WorkerConfig`), what it says afterwards (`WorkerReport`), and why it may end
without a report (`WorkerError`).
-/

namespace ShaderShrink

open Json (Decoder Failure)

/-! ## Configuration -/

/-- What a worker does with a fault. -/
inductive WorkerMode where
  /-- It files the fault. -/
  | runOnly
  /-- It also minimizes the job. -/
  | reduce
  deriving DecidableEq, Repr, Inhabited

namespace WorkerMode

/-- The name of a mode. -/
def name : WorkerMode → String
  | .runOnly => "run_only"
  | .reduce => "reduce"

/-- All modes. -/
def all : List WorkerMode := [.runOnly, .reduce]

/-- A mode as a JSON value. -/
def toJson (m : WorkerMode) : Json := .str m.name

/-- Decodes a mode. -/
def ofJson : Decoder WorkerMode := Json.choice (all.map fun m => (m.name, m))

end WorkerMode

/-- A set of texts as a JSON value. -/
def wordsToJson (s : Text.WordSet) : Json := .arr (s.toList.map .str)

/-- Decodes a set of texts. -/
def wordsOfJson : Decoder Text.WordSet := fun source v =>
  (Json.list Json.string source v).map .ofList

/-- What a worker is told. -/
structure WorkerConfig where
  /-- The number of pairs after which the worker stops. -/
  limit : UInt64
  mode : WorkerMode
  /-- Whether reference programs are left alone. -/
  variantsOnly : Bool
  /-- Texts in the log of a crash that show a known problem. -/
  ignoreStrings : Text.WordSet
  /-- The limits of each reduction. -/
  budget : ReductionBudget
  traceId : String
  deriving DecidableEq

namespace WorkerConfig

/-- A worker that files the faults of at most so many pairs. -/
def ofLimit (limit : UInt64) : WorkerConfig :=
  ⟨limit, .runOnly, false, .empty, .unlimited, "pipeline"⟩

instance : Inhabited WorkerConfig := ⟨ofLimit 0⟩

/-- A configuration as a JSON value. -/
def toJson (c : WorkerConfig) : Json :=
  .obj [("limit", .int c.limit.toNat), ("mode", c.mode.toJson),
    ("variants_only", .bool c.variantsOnly), ("ignore_strings", wordsToJson c.ignoreStrings),
    ("budget", c.budget.toJson), ("trace_id", .str c.traceId)]

/-- The keys of a configuration. -/
def keys : List String :=
  ["limit", "mode", "variants_only", "ignore_strings", "budget", "trace_id"]

/-- Decodes a configuration. -/
def ofJson : Decoder WorkerConfig := Json.record keys <|
  WorkerConfig.mk <$> Json.required "limit" Json.uint64
    <*> Json.required "mode" WorkerMode.ofJson
    <*> Json.required "variants_only" Json.boolean
    <*> Json.required "ignore_strings" wordsOfJson
    <*> Json.required "budget" ReductionBudget.ofJson
    <*> Json.required "trace_id" Json.string

end WorkerConfig

/-! ## Comparison -/

/-- Whether the programs of a pair behaved alike. -/
inductive ComparisonOutcome where
  | consistent
  | mismatch (detail : String)
  /-- The comparison does not apply to the pair. -/
  | unsupported
  deriving DecidableEq, Repr, Inhabited

namespace ComparisonOutcome

/-- An outcome as a JSON value. -/
def toJson : ComparisonOutcome → Json
  | .consistent => .obj [("outcome", .str "consistent")]
  | .mismatch detail => .obj [("outcome", .str "mismatch"), ("detail", .str detail)]
  | .unsupported => .obj [("outcome", .str "unsupported")]

/-- Decodes the rest of an outcome of the given kind. -/
def ofKind (kind : String) : Json.Draft → Except Failure ComparisonOutcome :=
  match kind with
  | "consistent" => Json.fieldless .consistent
  | "mismatch" => Json.variant ["detail"] (.mismatch <$> Json.required "detail" Json.string)
  | _ => Json.fieldless .unsupported

/-- Decodes an outcome. -/
def ofJson : Decoder ComparisonOutcome :=
  Json.tagged "outcome" ["consistent", "mismatch", "unsupported"] ofKind

end ComparisonOutcome

/-- Compares the result of a reference program with that of its variant, in a world of type `σ`. -/
abbrev Comparator (σ : Type) := JobResult → JobResult → σ → ComparisonOutcome × σ

/-- Compares nothing. -/
def noComparison {σ : Type} : Comparator σ := fun _ _ s => (.unsupported, s)

/-! ## Reports -/

/-- Why a worker stopped. -/
inductive StopReason where
  | limitReached
  | queueClosed
  deriving DecidableEq, Repr, Inhabited

namespace StopReason

/-- The name of a reason. -/
def name : StopReason → String
  | .limitReached => "limit_reached"
  | .queueClosed => "queue_closed"

/-- All reasons. -/
def all : List StopReason := [.limitReached, .queueClosed]

/-- A reason as a JSON value. -/
def toJson (r : StopReason) : Json := .str r.name

/-- Decodes a reason. -/
def ofJson : Decoder StopReason := Json.choice (all.map fun r => (r.name, r))

end StopReason

/-- A job that was minimized. -/
structure ReductionSummary where
  counter : Nat
  jobName : String
  status : JobStatus
  termination : Termination
  commits : Nat
  initialNodes : Nat
  finalNodes : Nat
  /-- The paths of the files. -/
  artifacts : List String
  deriving DecidableEq, Repr, Inhabited

namespace ReductionSummary

/-- A summary as a JSON value. -/
def toJson (s : ReductionSummary) : Json :=
  .obj [("counter", .int s.counter), ("job_name", .str s.jobName), ("status", s.status.toJson),
    ("termination", s.termination.toJson), ("commits", .int s.commits),
    ("initial_nodes", .int s.initialNodes), ("final_nodes", .int s.finalNodes),
    ("artifacts", .arr (s.artifacts.map .str))]

/-- The keys of a summary. -/
def keys : List String :=
  ["counter", "job_name", "status", "termination", "commits", "initial_nodes", "final_nodes",
    "artifacts"]

/-- Decodes a summary. -/
def ofJson : Decoder ReductionSummary := Json.record keys <|
  ReductionSummary.mk <$> Json.required "counter" Json.nat64
    <*> Json.required "job_name" Json.string
    <*> Json.required "status" JobStatus.ofJson
    <*> Json.required "termination" Termination.ofJson
    <*> Json.required "commits" Json.nat64
    <*> Json.required "initial_nodes" Json.nat64
    <*> Json.required "final_nodes" Json.nat64
    <*> Json.required "artifacts" (Json.list Json.string)

end ReductionSummary

/-- What a worker says about itself. -/
structure WorkerReport where
  /-- The number of the worker, if there are several. -/
  worker : Option Nat
  /-- The number of pairs that were taken from the queue. -/
  consumed : Nat
  stop : StopReason
  invalid : Nat
  skipped : Nat
  /-- The number of filed faults per name of a status. -/
  faults : Text.Tally
  /-- The number of filed faults with a known problem. -/
  ignored : Nat
  mismatches : Nat
  reductions : List ReductionSummary
  events : List Event
  deriving DecidableEq

namespace WorkerReport

/-- The report of a worker that has done nothing yet. -/
def start (worker : Option Nat) : WorkerReport :=
  ⟨worker, 0, .limitReached, 0, 0, .empty, 0, 0, [], []⟩

instance : Inhabited WorkerReport := ⟨start none⟩

/-- The number of filed faults. -/
def totalFaults (r : WorkerReport) : Nat := r.faults.total

/-- A report as a JSON value. -/
def toJson (r : WorkerReport) : Json :=
  .obj [("worker", Json.orNull (r.worker.map fun id => .int id)), ("consumed", .int r.consumed),
    ("stop", r.stop.toJson), ("invalid", .int r.invalid), ("skipped", .int r.skipped),
    ("faults", .obj (r.faults.entries.map fun (name, count) => (name, .int count))),
    ("ignored", .int r.ignored), ("mismatches", .int r.mismatches),
    ("reductions", .arr (r.reductions.map ReductionSummary.toJson)),
    ("events", .arr (r.events.map Event.toJson))]

/-- The keys of a report. -/
def keys : List String :=
  ["worker", "consumed", "stop", "invalid", "skipped", "faults", "ignored", "mismatches",
    "reductions", "events"]

/-- Decodes the number of filed faults per name of a status. -/
def faultsOfJson : Decoder Text.Tally := fun source v =>
  (Json.members Json.nat64 source v).map .ofList

/-- Decodes a report. -/
def ofJson : Decoder WorkerReport := Json.record keys <|
  WorkerReport.mk <$> Json.optional "worker" Json.nat64
    <*> Json.required "consumed" Json.nat64
    <*> Json.required "stop" StopReason.ofJson
    <*> Json.required "invalid" Json.nat64
    <*> Json.required "skipped" Json.nat64
    <*> Json.required "faults" faultsOfJson
    <*> Json.required "ignored" Json.nat64
    <*> Json.required "mismatches" Json.nat64
    <*> Json.required "reductions" (Json.list ReductionSummary.ofJson)
    <*> Json.required "events" (Json.list Event.ofJson)

end WorkerReport

/-- Why a worker ended without a report. -/
inductive WorkerError where
  /-- The queue was cancelled. -/
  | cancelled (consumed : Nat)
  /-- There is no place for the files of jobs. -/
  | scratch (cause : ArchiveError)
  /-- The runner broke down, and the worker with it. -/
  | panicked (worker : Nat)
  deriving DecidableEq, Repr

namespace WorkerError

/-- The name of a kind of errors. -/
def code : WorkerError → String
  | .cancelled _ => "worker_cancelled"
  | .scratch _ => "worker_scratch"
  | .panicked _ => "worker_panicked"

/-- What is said about an error. -/
def message : WorkerError → String
  | .cancelled consumed =>
    "worker cancelled while waiting for a job after " ++ toString consumed ++ " jobs"
  | .scratch cause => "scratch directory unusable: " ++ cause.message
  | .panicked worker => "worker " ++ toString worker ++ " panicked"

end WorkerError

end ShaderShrink

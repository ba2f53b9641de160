import ShaderShrink.Event
import ShaderShrink.Change.Basic

/-!
# Limits and reports of reductions

What a reduction is told (`ReductionConfig`, with its limits in `ReductionBudget`) and what it says
afterwards (`ReductionReport`): why it stopped, which changes it kept, how often it asked, and what
happened in which order.
-/

namespace ShaderShrink

open Json (Decoder)

/-! ## Configuration -/

/-- The limits of a reduction. A reduction that reaches one stops with what it has. -/
structure ReductionBudget where
  maxCommits : Option UInt64
  /-- The reduction stops before it would ask the oracle more often than this. -/
  maxOracleCalls : Option UInt64
  timeBudgetMs : Option UInt64
  deriving DecidableEq, Repr, Inhabited

namespace ReductionBudget

/-- No limits. -/
def unlimited : ReductionBudget := ⟨none, none, none⟩

/-- A word that may be absent as a JSON value. -/
def wordToJson (w : Option UInt64) : Json := Json.orNull (w.map fun w => .int w.toNat)

/-- Limits as a JSON value. -/
def toJson (b : ReductionBudget) : Json :=
  .obj [("max_commits", wordToJson b.maxCommits), ("max_oracle_calls", wordToJson b.maxOracleCalls),
    ("time_budget_ms", wordToJson b.timeBudgetMs)]

/-- Decodes limits. -/
def ofJson : Decoder ReductionBudget :=
  Json.record ["max_commits", "max_oracle_calls", "time_budget_ms"] <|
    ReductionBudget.mk <$> Json.optional "max_commits" Json.uint64
      <*> Json.optional "max_oracle_calls" Json.uint64
      <*> Json.optional "time_budget_ms" Json.uint64

end ReductionBudget

/-- What a reduction is told. -/
structure ReductionConfig where
  /-- The name that candidates have as jobs. -/
  jobName : String
  /-- The language that candidates have as jobs. -/
  language : String
  budget : ReductionBudget
  /-- Whether the oracle is asked about the unchanged program first. -/
  checkInitial : Bool
  traceId : String
  deriving DecidableEq, Repr, Inhabited

namespace ReductionConfig

/-- A reduction of a job without limits that does not ask about the unchanged program. -/
def ofJob (jobName language : String) : ReductionConfig :=
  ⟨jobName, language, .unlimited, false, "reduce"⟩

/-- A configuration as a JSON value. -/
def toJson (c : ReductionConfig) : Json :=
  .obj [("job_name", .str c.jobName), ("language", .str c.language), ("budget", c.budget.toJson),
    ("check_initial", .bool c.checkInitial), ("trace_id", .str c.traceId)]

/-- Decodes a configuration. -/
def ofJson : Decoder ReductionConfig :=
  Json.record ["job_name", "language", "budget", "check_initial", "trace_id"] <|
    ReductionConfig.mk <$> Json.required "job_name" Json.string
      <*> Json.required "language" Json.string
      <*> Json.required "budget" ReductionBudget.ofJson
      <*> Json.required "check_initial" Json.boolean
      <*> Json.required "trace_id" Json.string

end ReductionConfig

/-! ## Reports -/

/-- Why a reduction stopped. -/
inductive Termination where
  /-- No change of the last program is interesting. -/
  | fixpoint
  | initialNotInteresting
  | commitBudgetExhausted
  | oracleBudgetExhausted
  | timeBudgetExhausted
  deriving DecidableEq, Repr, Inhabited

namespace Termination

/-- The name of a reason to stop. -/
def name : Termination → String
  | .fixpoint => "fixpoint"
  | .initialNotInteresting => "initial_not_interesting"
  | .commitBudgetExhausted => "commit_budget_exhausted"
  | .oracleBudgetExhausted => "oracle_budget_exhausted"
  | .timeBudgetExhausted => "time_budget_exhausted"

/-- All reasons to stop. -/
def all : List Termination :=
  [.fixpoint, .initialNotInteresting, .commitBudgetExhausted, .oracleBudgetExhausted,
    .timeBudgetExhausted]

/-- Whether a limit was reached, so that the program may not be the smallest one. -/
def isBestEffort : Termination → Bool
  | .fixpoint | .initialNotInteresting => false
  | _ => true

/-- A reason as a JSON value. -/
def toJson (t : Termination) : Json := .str t.name

/-- Decodes a reason. -/
def ofJson : Decoder Termination := Json.choice (all.map fun t => (t.name, t))

end Termination

/-- A change that was kept. -/
structure CommitRecord where
  /-- The position among the changes that were kept, starting at one. -/
  sequence : Nat
  kind : ChangeKind
  description : String
  depth : Nat
  nodesBefore : Nat
  nodesAfter : Nat
  /-- The position of the call that accepted the change among all calls of the oracle. -/
  oracleCall : Nat
  deriving DecidableEq, Repr, Inhabited

namespace CommitRecord

/-- A record as a JSON value. -/
def toJson (c : CommitRecord) : Json :=
  .obj [("sequence", .int c.sequence), ("kind", c.kind.toJson),
    ("description", .str c.description), ("depth", .int c.depth),
    ("nodes_before", .int c.nodesBefore), ("nodes_after", .int c.nodesAfter),
    ("oracle_call", .int c.oracleCall)]

/-- The keys of a record. -/
def keys : List String :=
  ["sequence", "kind", "description", "depth", "nodes_before", "nodes_after", "oracle_call"]

/-- Decodes a record. -/
def ofJson : Decoder CommitRecord := Json.record keys <|
  CommitRecord.mk <$> Json.required "sequence" Json.nat64
    <*> Json.required "kind" ChangeKind.ofJson
    <*> Json.required "description" Json.string
    <*> Json.required "depth" (Json.natBelow Json.word32)
    <*> Json.required "nodes_before" Json.nat64
    <*> Json.required "nodes_after" Json.nat64
    <*> Json.required "oracle_call" Json.nat64

end CommitRecord

/-- What a reduction counted. -/
structure ReductionStats where
  scans : Nat
  oracleCalls : Nat
  rejectedNotInteresting : Nat
  rejectedInvalid : Nat
  rejectedExecutionError : Nat
  rejectedUnserializable : Nat
  preconditionMisses : Nat
  applyFailures : Nat
  initialNodes : Nat
  finalNodes : Nat
  initialHash : String
  reducedHash : String
  elapsedMs : Nat
  deriving DecidableEq, Repr, Inhabited

namespace ReductionStats

/-- The counts at the start of a reduction. -/
def start (initialNodes : Nat) (initialHash : String) : ReductionStats :=
  ⟨0, 0, 0, 0, 0, 0, 0, 0, initialNodes, 0, initialHash, "", 0⟩

/-- How many candidates were rejected. -/
def rejections (s : ReductionStats) : Nat :=
  s.rejectedNotInteresting + s.rejectedInvalid + s.rejectedExecutionError
    + s.rejectedUnserializable

/-- Counts as a JSON value. -/
def toJson (s : ReductionStats) : Json :=
  .obj [("scans", .int s.scans), ("oracle_calls", .int s.oracleCalls),
    ("rejected_not_interesting", .int s.rejectedNotInteresting),
    ("rejected_invalid", .int s.rejectedInvalid),
    ("rejected_execution_error", .int s.rejectedExecutionError),
    ("rejected_unserializable", .int s.rejectedUnserializable),
    ("precondition_misses", .int s.preconditionMisses), ("apply_failures", .int s.applyFailures),
    ("initial_nodes", .int s.initialNodes), ("final_nodes", .int s.finalNodes),
    ("original_hash", .str s.initialHash), ("reduced_hash", .str s.reducedHash),
    ("elapsed_ms", .int s.elapsedMs)]

/-- The keys of the counts. -/
def keys : List String :=
  ["scans", "oracle_calls", "rejected_not_interesting", "rejected_invalid",
    "rejected_execution_error", "rejected_unserializable", "precondition_misses", "apply_failures",
    "initial_nodes", "final_nodes", "original_hash", "reduced_hash", "elapsed_ms"]

/-- Decodes counts. -/
def ofJson : Decoder ReductionStats := Json.record keys <|
  ReductionStats.mk <$> Json.required "scans" Json.nat64
    <*> Json.required "oracle_calls" Json.nat64
    <*> Json.required "rejected_not_interesting" Json.nat64
    <*> Json.required "rejected_invalid" Json.nat64
    <*> Json.required "rejected_execution_error" Json.nat64
    <*> Json.required "rejected_unserializable" Json.nat64
    <*> Json.required "precondition_misses" Json.nat64
    <*> Json.required "apply_failures" Json.nat64
    <*> Json.required "initial_nodes" Json.nat64
    <*> Json.required "final_nodes" Json.nat64
    <*> Json.required "original_hash" Json.string
    <*> Json.required "reduced_hash" Json.string
    <*> Json.required "elapsed_ms" Json.nat64

end ReductionStats

/-- What a reduction says about itself. -/
structure ReductionReport where
  jobName : String
  traceId : String
  termination : Termination
  commits : List CommitRecord
  stats : ReductionStats
  events : List Event
  deriving DecidableEq, Repr, Inhabited

namespace ReductionReport

/-- A report as a JSON value. -/
def toJson (r : ReductionReport) : Json :=
  .obj [("job_name", .str r.jobName), ("trace_id", .str r.traceId),
    ("termination", r.termination.toJson), ("commits", .arr (r.commits.map CommitRecord.toJson)),
    ("stats", r.stats.toJson), ("events", .arr (r.events.map Event.toJson))]

/-- Decodes a report. -/
def ofJson : Decoder ReductionReport :=
  Json.record ["job_name", "trace_id", "termination", "commits", "stats", "events"] <|
    ReductionReport.mk <$> Json.required "job_name" Json.string
      <*> Json.required "trace_id" Json.string
      <*> Json.required "termination" Termination.ofJson
      <*> Json.required "commits" (Json.list CommitRecord.ofJson)
      <*> Json.required "stats" ReductionStats.ofJson
      <*> Json.required "events" (Json.list Event.ofJson)

/-- The text of the report file. -/
def encode (r : ReductionReport) : String := r.toJson.pretty

end ReductionReport

end ShaderShrink

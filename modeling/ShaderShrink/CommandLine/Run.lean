import ShaderShrink.CommandLine.Arguments
import ShaderShrink.Pipeline.Pairs
import ShaderShrink.Pipeline.Pool

/-!
# Running the program

What the program does once its arguments are read. `runCommandLine` gives what the program prints,
the error that it ends with, if there is one, and the world behind it, in which the files are.
-/

namespace ShaderShrink

open Json (Failure)

/-! ## Errors -/

/-- Why the program ends with an error. -/
inductive ProgramError where
  | arguments (cause : ArgumentError)
  | unreadableFile (cause : DiskError)
  | undecodableJob (cause : Failure)
  | undecodablePair (path : String) (line : Nat) (cause : Failure)
  | config (cause : ConfigError)
  | triage (cause : ArchiveError)
  | reduction (cause : ReductionError)
  /-- Some workers ended without a report. -/
  | failedWorkers (count : Nat)
  deriving DecidableEq, Repr

/-- What is said about the error that the program ends with. -/
def ProgramError.message : ProgramError → String
  | .arguments cause => cause.message
  | .unreadableFile cause => cause.message
  | .undecodableJob cause => cause.category
  | .undecodablePair path line cause => path ++ ":" ++ toString line ++ ": " ++ cause.category
  | .config cause => cause.message
  | .triage cause => cause.message
  | .reduction cause => cause.message
  | .failedWorkers count => toString count ++ " worker(s) failed"

/-- How the program ends. -/
structure Ending where
  /-- What the program prints. -/
  summary : Option Json
  error : Option ProgramError

namespace Ending

/-- The program has done what it was asked to do. -/
def done (summary : Json) : Ending := ⟨some summary, none⟩

/-- The program could not do what it was asked to do. -/
def failed (error : ProgramError) : Ending := ⟨none, some error⟩

/-- What the program prints, as a text. -/
def output (e : Ending) : String := e.summary.elim "" fun v => v.sortKeys.pretty ++ "\n"

/-- The exit code. -/
def exitCode (e : Ending) : Nat := if e.error.isSome then 1 else 0

end Ending

/-! ## Commands -/

/-- What surrounds the program, apart from its files. -/
structure Surroundings (σ : Type) where
  /-- The environment variables. -/
  environment : String → Option String
  /-- How requests reach the service. -/
  transport : Transport σ
  /-- The time at which the program starts, as it stands in traces. -/
  stamp : String
  /-- The clock of a reduction, by the number of the pair; a reduction without pairs has the first
  one. -/
  clock : Nat → Nat → Nat

section

variable {σ : Type} [Disk σ]

/-- Reads the job in a file. -/
def loadJob (path : String) (s : σ) : Except ProgramError ShaderJob :=
  match Disk.read path s with
  | .error cause => .error (.unreadableFile cause)
  | .ok text => (ShaderJob.decode text).mapError .undecodableJob

/-- Reads the pairs in a file. -/
def loadPairs (path : String) (s : σ) : Except ProgramError (List ProgramPair) :=
  match Disk.read path s with
  | .error cause => .error (.unreadableFile cause)
  | .ok text => (ProgramPair.readAll text).mapError fun e => .undecodablePair path e.line e.cause

/-- What the program prints about a job that was minimized. -/
def reductionSummary (job : ShaderJob) (status : JobStatus) (report : ReductionReport)
    (artifacts : List String) : Json :=
  .obj [("trace_id", .str report.traceId), ("job", .str job.name), ("status", status.toJson),
    ("termination", report.termination.toJson), ("commits", .int report.commits.length),
    ("oracle_calls", .int report.stats.oracleCalls),
    ("initial_nodes", .int report.stats.initialNodes),
    ("final_nodes", .int report.stats.finalNodes),
    ("original_hash", .str report.stats.initialHash),
    ("reduced_hash", .str report.stats.reducedHash),
    ("artifacts", .arr (artifacts.map .str))]

/-- Files a job that was minimized. -/
def fileReduced (config : PipelineConfig) (job : ShaderJob) (status : JobStatus)
    (outcome : ReductionOutcome) (s : σ) : Ending × σ :=
  match outcome.job job.name job.language with
  | .error e => (.failed (.reduction e), s)
  | .ok reduced =>
    match Archive.create config.outputDir s with
    | (.error e, s) => (.failed (.triage e), s)
    | (.ok archive, s) =>
      match archive.keepReduction status 0 reduced outcome.report s with
      | (.error e, s) => (.failed (.triage e), s)
      | (.ok artifacts, s) => (.done (reductionSummary job status outcome.report artifacts), s)

/-- The fault that candidates have to show. -/
def faultWanted (status : JobStatus) (logSignature : Option String) : Fault :=
  logSignature.elim (.ofStatus status) (Fault.ofStatus status).withSignature

/-- Minimizes the job in a file. -/
def reduceCommand (around : Surroundings σ) (config : PipelineConfig) (jobPath : String)
    (status : JobStatus) (logSignature : Option String) (checkInitial : Bool) (s : σ) :
    Ending × σ :=
  match loadJob jobPath s with
  | .error e => (.failed e, s)
  | .ok job =>
    match config.makeClient around.environment with
    | .error e => (.failed (.config e), s)
    | .ok client =>
      let reducer : Reducer (FaultOracle σ) := {
        config := ⟨job.name, job.language, config.budget, checkInitial,
          freshTraceId "reduce" around.stamp⟩
        finder := .default
        oracle :=
          FaultOracle.classify (client.runner around.transport) (faultWanted status logSignature)
        clock := around.clock 0 }
      match reducer.reduce (.ofProgram job.program) (.start s) with
      | (.error e, oracle) => (.failed (.reduction e), oracle.world)
      | (.ok outcome, oracle) => fileReduced config job status outcome oracle.world

/-- The reports of the workers that ended with one. -/
def reportsOf (ends : List WorkerEnd) : List WorkerReport :=
  ends.filterMap fun
    | .finished report => some report
    | _ => none

/-- The errors of the workers that ended with one. -/
def errorsOf (ends : List WorkerEnd) : List WorkerError :=
  ends.filterMap fun
    | .failed error => some error
    | _ => none

/-- How the program ends when the workers have ended. -/
def pipelineEnding (config : PipelineConfig) (traceId : String) (ends : List WorkerEnd) :
    Ending where
  summary := some (.obj [("trace_id", .str traceId), ("output_dir", .str config.outputDir),
    ("reports", .arr ((reportsOf ends).map WorkerReport.toJson)),
    ("failures", .arr ((errorsOf ends).map fun e => .str e.message))])
  error :=
    if (errorsOf ends).isEmpty then none else some (.failedWorkers (errorsOf ends).length)

/-- Works on the pairs in a file. The queue holds all pairs from the start: workers take them in the
same order as from a queue that is filled while they work. -/
def pipelineCommand (around : Surroundings σ) (config : PipelineConfig) (pairsPath : String)
    (s : σ) : Ending × σ :=
  match loadPairs pairsPath s with
  | .error e => (.failed e, s)
  | .ok pairs =>
    match config.makeClient around.environment with
    | .error e => (.failed (.config e), s)
    | .ok client =>
      match Archive.create config.outputDir s with
      | (.error e, s) => (.failed (.triage e), s)
      | (.ok archive, s) =>
        let traceId := freshTraceId "pipeline" around.stamp
        let worker : Worker σ := {
          id := none
          config := config.forWorkers traceId
          archive
          runner := client.runner around.transport
          comparator := noComparison
          clock := around.clock }
        let queue := ((JobQueue.new pairs.length).pushAll pairs).close
        let (ends, p) := runPool worker config.workers.toNat { queue, counter := 0, world := s }
        (pipelineEnding config traceId ends, p.world)

/-- Runs the program. -/
def runCommandLine (around : Surroundings σ) (arguments : List String) (s : σ) : Ending × σ :=
  match Invocation.ofArguments arguments s with
  | .error e => (.failed (.arguments e), s)
  | .ok ⟨.reduce jobPath status logSignature checkInitial, config⟩ =>
    reduceCommand around config jobPath status logSignature checkInitial s
  | .ok ⟨.pipeline pairsPath, config⟩ => pipelineCommand around config pairsPath s

end

end ShaderShrink

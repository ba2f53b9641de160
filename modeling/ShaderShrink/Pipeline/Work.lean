import ShaderShrink.JobQueue
import ShaderShrink.Reduction.Run
import ShaderShrink.Pipeline.Report

/-!
# Workers

A worker takes pairs from the queue and works on one after another. It writes a program to its
scratch directory, validates and runs it, writes down the result, and files what went wrong; the
variant comes first, and the reference program is left alone if the variant could not be run. In
`WorkerMode.reduce` the variant of a fault without a known problem is minimized.

What goes wrong with one job is noted in the report, and the worker goes on. Only a cancelled queue,
a scratch directory that cannot be emptied, and a runner that breaks down end its work early.

`Worker.handle` is the work on one pair, and `Worker.serve` the work on all pairs that the queue
gives.
-/

namespace ShaderShrink

/-- A worker. -/
structure Worker (σ : Type) where
  /-- The number of the worker, if there are several. -/
  id : Option Nat
  config : WorkerConfig
  archive : Archive
  runner : Runner σ
  comparator : Comparator σ
  /-- The clock of a reduction, by the number of the pair. -/
  clock : Nat → Nat → Nat

/-- The programs of a pair. -/
inductive Side where
  | reference
  | variant
  deriving DecidableEq, Repr

/-- The start of the names of the files of a program. -/
def Side.stem : Side → String
  | .reference => "reference"
  | .variant => "variant"

/-- What a worker changes while it works on a pair: the world, in which its files are, and its
report. -/
structure Desk (σ : Type) where
  world : σ
  report : WorkerReport

/-- A program that was run, with its files. -/
structure RanJob where
  result : JobResult
  jobFile : String
  resultFile : String
  deriving DecidableEq, Repr

/-- The files of a program that was run. -/
def RanJob.artifacts (e : RanJob) : List String := [e.jobFile, e.resultFile]

/-- How the work on one program went. -/
inductive Execution where
  | ran (executed : RanJob)
  /-- The program was not run, and the report says why. -/
  | handled
  | died
  deriving DecidableEq, Repr

/-- Whether a worker can go on. -/
inductive Condition where
  | fit
  | died
  deriving DecidableEq, Repr

namespace Worker

variable {σ : Type} [Disk σ]

/-- The part of the program that events of workers name. -/
def component : String := "worker"

/-- The directory of the files of the current pair. -/
def workDir (w : Worker σ) : String := w.archive.workDir w.id

/-! ## Notes -/

/-- How events name a job. -/
def decisionId (job : ShaderJob) (counter : Nat) : String := counterLabel counter ++ job.name

/-- Notes an event that went well. -/
def notePass (w : Worker σ) (job : ShaderJob) (counter : Nat) (event : String)
    (r : WorkerReport) : WorkerReport :=
  { r with events :=
      r.events ++ [.pass w.config.traceId (decisionId job counter) component event] }

/-- Notes an event that went wrong. -/
def noteFail (w : Worker σ) (job : ShaderJob) (counter : Nat) (event code : String)
    (r : WorkerReport) : WorkerReport :=
  { r with events :=
      r.events ++ [.fail w.config.traceId (decisionId job counter) component event code] }

/-- Notes that a job could not be dealt with. -/
def skip (w : Worker σ) (job : ShaderJob) (counter : Nat) (event code : String)
    (r : WorkerReport) : WorkerReport :=
  w.noteFail job counter event code { r with skipped := r.skipped + 1 }

/-! ## One program -/

/-- Files a program that is not valid. -/
def rejectInvalid (w : Worker σ) (job : ShaderJob) (counter : Nat) (jobFile : String)
    (d : Desk σ) : Desk σ :=
  let report := { d.report with invalid := d.report.invalid + 1 }
  match w.archive.keepInvalid counter [jobFile] d.world with
  | (.ok _, world) =>
    { world, report := w.noteFail job counter "validate" "invalid_program" report }
  | (.error e, world) => { world, report := w.noteFail job counter "validate" e.code report }

/-- Runs a program whose text has been written to a file. -/
def runJob (w : Worker σ) (job : ShaderJob) (counter : Nat) (jobFile resultFile : String)
    (d : Desk σ) : Execution × Desk σ :=
  match w.runner.run job.encode d.world with
  | (.died, world) => (.died, { d with world })
  | (.failed e, world) =>
    (.handled, { world, report := w.skip job counter "oracle_run" e.code d.report })
  | (.result result, world) =>
    match Disk.write resultFile result.toJson.pretty world with
    | (.error _, world) =>
      (.handled, { world, report := w.skip job counter "write_result" "scratch_io" d.report })
    | (.ok _, world) =>
      (.ran ⟨result, jobFile, resultFile⟩,
        { world, report := w.notePass job counter "oracle_run" d.report })

/-- Writes a program to its file, validates it and runs it. -/
def examine (w : Worker σ) (job : ShaderJob) (role : Side) (counter : Nat) (d : Desk σ) :
    Execution × Desk σ :=
  let jobFile := Path.join w.workDir (role.stem ++ ".json")
  let resultFile := Path.join w.workDir (role.stem ++ ".info.json")
  match Disk.write jobFile job.encode d.world with
  | (.error _, world) =>
    (.handled, { world, report := w.skip job counter "write_job" "scratch_io" d.report })
  | (.ok _, world) =>
    match w.runner.validate job.encode world with
    | (true, world) => w.runJob job counter jobFile resultFile { d with world }
    | (false, world) => (.handled, w.rejectInvalid job counter jobFile { d with world })

/-! ## Faults -/

/-- Whether a result shows a known problem. -/
def isIgnored (w : Worker σ) (result : JobResult) : Bool :=
  result.status = .crash && result.logsAnyOf w.config.ignoreStrings.toList

/-- Counts a fault that was filed. -/
def countFault (status : JobStatus) (ignored : Bool) (r : WorkerReport) : WorkerReport :=
  { r with
    faults := r.faults.bump status.name
    ignored := if ignored then r.ignored + 1 else r.ignored }

/-- Files the result of a program if it is a fault. -/
def archiveFault (w : Worker σ) (job : ShaderJob) (executed : RanJob) (counter : Nat)
    (d : Desk σ) : Desk σ :=
  let status := executed.result.status
  if status.isFault then
    let ignored := w.isIgnored executed.result
    match w.archive.keepFault status ignored counter executed.artifacts d.world with
    | (.ok _, world) =>
      { world, report := w.notePass job counter "fault_filed" (countFault status ignored d.report) }
    | (.error e, world) => { world, report := w.noteFail job counter "fault_filed" e.code d.report }
  else d

/-- The fault that candidates have to show when a job with the given result is minimized. A
candidate whose log shows a known problem that the log of the job does not show has another
fault. -/
def faultOf (w : Worker σ) (shown : JobResult) : Fault :=
  (Fault.ofStatus shown.status).withExcluded
    (w.config.ignoreStrings.toList.filter fun needle => !Text.mentions shown.log needle)

/-- What minimizes a job with the given result. -/
def reducer (w : Worker σ) (job : ShaderJob) (shown : JobResult) (counter : Nat) :
    Reducer (FaultOracle σ) where
  config :=
    { ReductionConfig.ofJob job.name job.language with
      budget := w.config.budget
      traceId := w.config.traceId }
  finder := .default
  oracle := FaultOracle.classify w.runner (w.faultOf shown)
  clock := w.clock counter

/-- Files a job that was minimized. -/
def archiveOutcome (w : Worker σ) (job : ShaderJob) (status : JobStatus) (counter : Nat)
    (outcome : ReductionOutcome) (d : Desk σ) : Desk σ :=
  match outcome.job job.name job.language with
  | .error e => { d with report := w.noteFail job counter "reduce" e.code d.report }
  | .ok reduced =>
    match w.archive.keepReduction status counter reduced outcome.report d.world with
    | (.error e, world) => { world, report := w.noteFail job counter "reduce" e.code d.report }
    | (.ok artifacts, world) =>
      let summary : ReductionSummary := {
        counter
        jobName := job.name
        status
        termination := outcome.report.termination
        commits := outcome.report.commits.length
        initialNodes := outcome.report.stats.initialNodes
        finalNodes := outcome.report.stats.finalNodes
        artifacts }
      { world,
        report := w.notePass job counter "reduce"
          { d.report with reductions := d.report.reductions ++ [summary] } }

/-- Minimizes a job with the given result. -/
def reduce (w : Worker σ) (job : ShaderJob) (shown : JobResult) (counter : Nat) (d : Desk σ) :
    Condition × Desk σ :=
  let (outcome, oracle) :=
    (w.reducer job shown counter).reduce (.ofProgram job.program) (.start d.world)
  let d := { d with world := oracle.world }
  if oracle.died then (.died, d)
  else
    match outcome with
    | .error e => (.fit, { d with report := w.noteFail job counter "reduce" e.code d.report })
    | .ok outcome => (.fit, w.archiveOutcome job shown.status counter outcome d)

/-- Minimizes the variant of a pair, if that is to be done. -/
def reduceIfWanted (w : Worker σ) (job : ShaderJob) (result : JobResult) (counter : Nat)
    (d : Desk σ) : Condition × Desk σ :=
  if w.config.mode = .reduce ∧ result.status.isFault ∧ !w.isIgnored result then
    w.reduce job result counter d
  else (.fit, d)

/-! ## Pairs -/

/-- Files a pair whose programs behave differently. -/
def archiveMismatch (w : Worker σ) (pair : ProgramPair) (reference variant : RanJob)
    (counter : Nat) (d : Desk σ) : Desk σ :=
  match w.comparator reference.result variant.result d.world with
  | (.mismatch _, world) =>
    let artifacts := reference.artifacts ++ variant.artifacts
    match w.archive.keepMismatch counter artifacts world with
    | (.ok _, world) =>
      { world,
        report := w.notePass pair.variant counter "mismatch_filed"
          { d.report with mismatches := d.report.mismatches + 1 } }
    | (.error e, world) =>
      { world, report := w.noteFail pair.variant counter "mismatch_filed" e.code d.report }
  | (.consistent, world) | (.unsupported, world) => { d with world }

/-- Works on the reference program of a pair whose variant was run. -/
def workOnReference (w : Worker σ) (pair : ProgramPair) (variant : RanJob) (counter : Nat)
    (d : Desk σ) : Condition × Desk σ :=
  match w.examine pair.reference .reference counter d with
  | (.died, d) => (.died, d)
  | (.handled, d) => (.fit, d)
  | (.ran reference, d) =>
    let d := w.archiveFault pair.reference reference counter d
    (.fit, w.archiveMismatch pair reference variant counter d)

/-- Works on a pair. -/
def workOn (w : Worker σ) (pair : ProgramPair) (counter : Nat) (d : Desk σ) :
    Condition × Desk σ :=
  match w.examine pair.variant .variant counter d with
  | (.died, d) => (.died, d)
  | (.handled, d) => (.fit, d)
  | (.ran variant, d) =>
    let d := w.archiveFault pair.variant variant counter d
    match w.reduceIfWanted pair.variant variant.result counter d with
    | (.died, d) => (.died, d)
    | (.fit, d) =>
      if w.config.variantsOnly then (.fit, d)
      else w.workOnReference pair variant counter d

end Worker

/-! ## The work on a queue -/

/-- What workers share: the queue, the number of the next job and the world. -/
structure Pipeline (σ : Type) where
  queue : JobQueue ProgramPair
  /-- The number that the next job gets. -/
  counter : Nat
  world : σ

/-- How the work of a worker ends. -/
inductive WorkerEnd where
  | finished (report : WorkerReport)
  | failed (error : WorkerError)
  /-- The worker has to wait for a pair, or for the end of the queue. -/
  | waiting (report : WorkerReport)
  | died
  deriving DecidableEq

namespace Worker

variable {σ : Type} [Disk σ]

/-- Works on a pair that was taken from the queue: gives the report behind it, or says how the work
ends. -/
def handle (w : Worker σ) (pair : ProgramPair) (report : WorkerReport) (p : Pipeline σ) :
    Except WorkerEnd WorkerReport × Pipeline σ :=
  let report := { report with consumed := report.consumed + 1 }
  match Archive.resetDir w.workDir p.world with
  | (.error e, world) => (.error (.failed (.scratch e)), { p with world })
  | (.ok _, world) =>
    match w.workOn pair p.counter { world, report } with
    | (.died, d) => (.error .died, { p with counter := p.counter + 1, world := d.world })
    | (.fit, d) => (.ok d.report, { p with counter := p.counter + 1, world := d.world })

/-- Works on the pairs that the queue gives, `remaining` of them at most. -/
def serve (w : Worker σ) : Nat → WorkerReport → Pipeline σ → WorkerEnd × Pipeline σ
  | 0, report, p => (.finished { report with stop := .limitReached }, p)
  | remaining + 1, report, p =>
    match p.queue.take? with
    | none => (.waiting report, p)
    | some (.cancelled, queue) => (.failed (.cancelled report.consumed), { p with queue })
    | some (.closed, queue) => (.finished { report with stop := .queueClosed }, { p with queue })
    | some (.item pair, queue) =>
      match w.handle pair report { p with queue } with
      | (.ok report, p) => w.serve remaining report p
      | (.error reason, p) => (reason, p)

/-- Works on the pairs that the queue gives, up to the limit of the worker. -/
def run (w : Worker σ) (p : Pipeline σ) : WorkerEnd × Pipeline σ :=
  w.serve w.config.limit.toNat (.start w.id) p

end Worker

end ShaderShrink

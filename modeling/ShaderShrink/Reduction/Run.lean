import ShaderShrink.Change.Search
import ShaderShrink.Verdict
import ShaderShrink.Reduction.Report

/-!
# Reducing a program

A reduction looks for the opportunities of the program and tries them one after another: it makes
the change, asks the oracle about the text of the changed program, and keeps the change if the
answer is "interesting", in which case it looks for opportunities anew. Otherwise it undoes the
change and tries the next one. It stops when no opportunity is left to try (`Termination.fixpoint`)
or a limit is reached.

`Reducer.attempt` is one try, `Reducer.attemptAll` the tries after one look for opportunities, and
`Reducer.rounds` the whole search. Every change that is kept makes the program smaller, so there are
at most as many looks as the program has nodes.

The clock is a function from the number of the reading to the milliseconds since the start, so a
theorem about all clocks is one about all patterns of time-outs.
-/

namespace ShaderShrink

/-- What a reduction goes by: its configuration, what it looks for, whom it asks and its clock. -/
structure Reducer (σ : Type) where
  config : ReductionConfig
  finder : FinderConfig
  oracle : Oracle σ
  /-- The milliseconds that have passed at each reading of the clock. -/
  clock : Nat → Nat

/-- The state of a reduction. -/
structure Run (σ : Type) where
  arena : Arena
  /-- The state of the oracle. -/
  oracle : σ
  commits : List CommitRecord
  stats : ReductionStats
  events : List Event
  /-- How often the clock was read. -/
  readings : Nat

/-- How a reduction ends. -/
inductive Halt where
  | stopped (reason : Termination)
  | failed (error : ReductionError)
  deriving DecidableEq, Repr

/-- What follows a try. -/
inductive Step where
  /-- The next opportunity is tried. -/
  | next
  /-- The change was kept. -/
  | committed
  | halted (halt : Halt)
  deriving DecidableEq, Repr

/-- The program that a reduction ends with, and its report. -/
structure ReductionOutcome where
  arena : Arena
  report : ReductionReport
  deriving DecidableEq, Repr

/-- The program of an outcome as a job. -/
def ReductionOutcome.job (o : ReductionOutcome) (name language : String) :
    Except ReductionError ShaderJob :=
  match o.arena.toProgram with
  | .ok program => .ok ⟨name, language, program⟩
  | .error e => .error (.structural e)

namespace Reducer

variable {σ : Type}

/-- The part of the program that events of reductions name. -/
def component : String := "reducer"

/-! ## Notes -/

/-- Notes an event that went well. -/
def notePass (r : Reducer σ) (run : Run σ) (event : String) : Run σ :=
  { run with events :=
      run.events ++ [.pass r.config.traceId r.config.jobName component event] }

/-- Notes an event that was left out. -/
def noteSkip (r : Reducer σ) (run : Run σ) (event : String) : Run σ :=
  { run with events :=
      run.events ++ [.skip r.config.traceId r.config.jobName component event] }

/-- Notes an event that went wrong. -/
def noteFail (r : Reducer σ) (run : Run σ) (event code : String) : Run σ :=
  { run with events :=
      run.events ++ [.fail r.config.traceId r.config.jobName component event code] }

/-! ## Limits -/

/-- Reads the clock: whether the time is up. -/
def look (r : Reducer σ) (run : Run σ) : Bool × Run σ :=
  (r.config.budget.timeBudgetMs.any fun ms => ms.toNat ≤ r.clock run.readings,
    { run with readings := run.readings + 1 })

/-- Whether the oracle may not be asked any more. -/
def questionsSpent (r : Reducer σ) (run : Run σ) : Bool :=
  r.config.budget.maxOracleCalls.any fun limit => limit.toNat ≤ run.stats.oracleCalls

/-- Whether no further change may be kept. -/
def commitsSpent (r : Reducer σ) (run : Run σ) : Bool :=
  r.config.budget.maxCommits.any fun limit => limit.toNat ≤ run.commits.length

/-! ## Questions -/

/-- The text of the current program as a job. -/
def currentText (r : Reducer σ) (run : Run σ) : Except ArenaError String :=
  run.arena.toProgram.map fun program =>
    ShaderJob.encode ⟨r.config.jobName, r.config.language, program⟩

/-- Asks the oracle about a text. -/
def ask (r : Reducer σ) (run : Run σ) (text : String) : Verdict × Run σ :=
  let (verdict, oracle) := r.oracle text run.oracle
  (verdict,
    { run with oracle, stats := { run.stats with oracleCalls := run.stats.oracleCalls + 1 } })

/-- Asks the oracle about the unchanged program. -/
def askFirst (r : Reducer σ) (run : Run σ) : Option Halt × Run σ :=
  if r.questionsSpent run then (some (.stopped .oracleBudgetExhausted), run)
  else
    match r.currentText run with
    | .error _ =>
      (some (.stopped .initialNotInteresting), r.noteFail run "initial_check" "structural_error")
    | .ok text =>
      match r.ask run text with
      | (.interesting, run) => (none, r.notePass run "initial_check")
      | (verdict, run) =>
        (some (.stopped .initialNotInteresting), r.noteFail run "initial_check" verdict.name)

/-! ## Tries -/

/-- Keeps a change that the oracle found interesting. -/
def commit (r : Reducer σ) (o : Opportunity) (description : String) (nodesBefore : Nat)
    (run : Run σ) : Step × Run σ :=
  match run.arena.compact with
  | .error e => (.halted (.failed (.structural e)), run)
  | .ok arena =>
    let record : CommitRecord := {
      sequence := run.commits.length + 1
      kind := o.change.kind
      description
      depth := o.depth
      nodesBefore
      nodesAfter := run.arena.liveCount
      oracleCall := run.stats.oracleCalls }
    (.committed,
      r.notePass { run with arena, commits := run.commits ++ [record] } "candidate_committed")

/-- Counts a rejection with a verdict. -/
def countRejection (verdict : Verdict) (s : ReductionStats) : ReductionStats :=
  match verdict with
  | .invalid => { s with rejectedInvalid := s.rejectedInvalid + 1 }
  | .executionError => { s with rejectedExecutionError := s.rejectedExecutionError + 1 }
  | _ => { s with rejectedNotInteresting := s.rejectedNotInteresting + 1 }

/-- Undoes a change that the oracle rejected. -/
def reject (r : Reducer σ) (edit : Edit) (verdict : Verdict) (run : Run σ) : Step × Run σ :=
  match edit.revert run.arena with
  | .error e => (.halted (.failed (.structural e)), run)
  | .ok arena =>
    (.next,
      r.noteFail { run with arena, stats := countRejection verdict run.stats }
        "candidate_rejected" verdict.name)

/-- Undoes a change that leaves no program to ask about. -/
def discard (r : Reducer σ) (edit : Edit) (run : Run σ) : Step × Run σ :=
  match edit.revert run.arena with
  | .error e => (.halted (.failed (.structural e)), run)
  | .ok arena =>
    let stats :=
      { run.stats with rejectedUnserializable := run.stats.rejectedUnserializable + 1 }
    (.next, r.noteFail { run with arena, stats } "candidate_serialize" "structural_error")

/-- Asks about a change that was just made. -/
def judge (r : Reducer σ) (o : Opportunity) (edit : Edit) (description : String)
    (nodesBefore : Nat) (run : Run σ) : Step × Run σ :=
  match r.currentText run with
  | .error _ => r.discard edit run
  | .ok text =>
    match r.ask run text with
    | (.interesting, run) => r.commit o description nodesBefore run
    | (verdict, run) => r.reject edit verdict run

/-- Tries an opportunity. -/
def attempt (r : Reducer σ) (o : Opportunity) (run : Run σ) : Step × Run σ :=
  if !o.change.holds run.arena then
    let stats := { run.stats with preconditionMisses := run.stats.preconditionMisses + 1 }
    (.next, r.noteSkip { run with stats } "precondition_miss")
  else if r.questionsSpent run then
    (.halted (.stopped .oracleBudgetExhausted), run)
  else
    match o.change.apply run.arena with
    | (.error e, arena) =>
      let stats := { run.stats with applyFailures := run.stats.applyFailures + 1 }
      (.next, r.noteFail { run with arena, stats } "candidate_apply" e.code)
    | (.ok edit, arena) =>
      r.judge o edit (o.change.describe run.arena) run.arena.liveCount { run with arena }

/-- Tries opportunities in their order until a change is kept, which gives no reason to halt, or the
reduction halts. The clock is read before every try and once more when none is left. -/
def attemptAll (r : Reducer σ) : List Opportunity → Run σ → Option Halt × Run σ
  | opportunities, run =>
    match r.look run with
    | (true, run) => (some (.stopped .timeBudgetExhausted), run)
    | (false, run) =>
      match opportunities with
      | [] => (some (.stopped .fixpoint), run)
      | o :: rest =>
        match r.attempt o run with
        | (.next, run) => r.attemptAll rest run
        | (.committed, run) => (none, run)
        | (.halted halt, run) => (some halt, run)

/-! ## The search -/

/-- Looks for opportunities, and says if there is a reason to stop instead of trying them. -/
def scan (r : Reducer σ) (run : Run σ) : Except Termination (List Opportunity) × Run σ :=
  let found := r.finder.find run.arena
  let run := { run with stats := { run.stats with scans := run.stats.scans + 1 } }
  if found.isEmpty then (.error .fixpoint, run)
  else if r.commitsSpent run then (.error .commitBudgetExhausted, run)
  else (.ok found, run)

/-- Looks for opportunities and tries them until the reduction halts, at most `rounds` times. -/
def rounds (r : Reducer σ) : Nat → Run σ → Halt × Run σ
  | 0, run => (.stopped .fixpoint, run)
  | rounds + 1, run =>
    match r.look run with
    | (true, run) => (.stopped .timeBudgetExhausted, run)
    | (false, run) =>
      match r.scan run with
      | (.error reason, run) => (.stopped reason, run)
      | (.ok found, run) =>
        match r.attemptAll found run with
        | (none, run) => r.rounds rounds run
        | (some halt, run) => (halt, run)

/-- The state at the start of a reduction. -/
def start (arena : Arena) (oracle : σ) : Except ArenaError (Run σ) :=
  arena.digest.map fun digest =>
    { arena, oracle, commits := [], stats := .start arena.liveCount digest, events := [],
      readings := 0 }

/-- The search, after the question about the unchanged program if it is to be asked. -/
def search (r : Reducer σ) (run : Run σ) : Halt × Run σ :=
  let first := if r.config.checkInitial then r.askFirst run else (none, run)
  match first with
  | (some halt, run) => (halt, run)
  | (none, run) => r.rounds (run.arena.liveCount + 1) run

/-- The outcome of a reduction that stopped. -/
def finish (r : Reducer σ) (reason : Termination) (run : Run σ) :
    Except ReductionError ReductionOutcome :=
  match run.arena.toProgram with
  | .error e => .error (.structural e)
  | .ok program =>
    let arena := Arena.ofProgram program
    let stats :=
      { run.stats with
        finalNodes := arena.liveCount
        reducedHash := program.digest
        elapsedMs := min (r.clock run.readings) (Json.word64 - 1) }
    let run :=
      if reason.isBestEffort then r.noteSkip run reason.name else r.notePass run reason.name
    .ok {
      arena
      report := {
        jobName := r.config.jobName
        traceId := r.config.traceId
        termination := reason
        commits := run.commits
        stats
        events := run.events } }

/-- Reduces a program, and gives the outcome and the state that the oracle is left in. It fails only
if the arena holds no program. -/
def reduce (r : Reducer σ) (arena : Arena) (oracle : σ) :
    Except ReductionError ReductionOutcome × σ :=
  match start arena oracle with
  | .error e => (.error (.structural e), oracle)
  | .ok run =>
    match r.search run with
    | (.failed e, run) => (.error e, run.oracle)
    | (.stopped reason, run) => (r.finish reason run, run.oracle)

end Reducer

end ShaderShrink

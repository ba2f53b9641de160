import ShaderShrink.Proofs.Disk.Performed
import ShaderShrink.Proofs.Pipeline.Journal
import ShaderShrink.Proofs.Pipeline.Notes
import ShaderShrink.Proofs.Reduction.Reproduction

/-!
# What workers file reproduces

A worker that minimizes a job files a job that shows the fault of the first one and no known problem
instead (`Worker.serve_reproduces`). The decision which faults are minimized, the texts that are
ruled out in the logs of candidates and the soundness of reductions each contribute a part, and the
journal of the worker tells that the job was filed.
-/

namespace ShaderShrink

open Arena

variable {σ : Type}

/-- The path of the job among the files of a minimized job. -/
def ReductionSummary.jobFile (s : ReductionSummary) (a : Archive) : String :=
  Path.join (a.reducedDir s.status) (counterLabel s.counter ++ s.jobName ++ ".json")

/-- A summary tells of a job that was minimized to `reduced`. The job was run with the result
`shown`, and what was filed is a job that the runner accepts and that is run with the result
`result`. -/
structure Worker.Reproduction (w : Worker σ) (replies : Replies)
    (calls : List DiskCall) (summary : ReductionSummary) (job reduced : ShaderJob)
    (shown result : JobResult) : Prop where
  jobName_eq : summary.jobName = job.name
  run_job : replies.run job.encode = .result shown
  status_shown : shown.status = summary.status
  jobFile_mem : summary.jobFile w.archive ∈ summary.artifacts
  filed : Archive.FiledWhole calls (summary.jobFile w.archive) reduced.encode
  accepts_reduced : replies.accepts reduced.encode
  run_reduced : replies.run reduced.encode = .result result
  status_result : result.status = summary.status
  /-- The log has no known problem that the log of the job has not. -/
  mentions_shown : ∀ needle ∈ w.config.ignoreStrings.toList, needle ≠ "" →
    Text.mentions result.log needle → Text.mentions shown.log needle
  /-- The log of a crash has no known problem. -/
  not_mentions_crash : summary.status = .crash → ∀ needle ∈ w.config.ignoreStrings.toList,
    needle ≠ "" → Text.mentions result.log needle = false

/-- A journal does not change what a runner says. -/
theorem Runner.Answers.journaled {runner : Runner σ} {replies : Replies}
    (h : runner.Answers replies) : runner.journaled.Answers replies where
  validate_eq text s := h.validate_eq text s.world
  run_eq text s := h.run_eq text s.world

namespace Worker

variable {w : Worker σ} {replies : Replies} {job : ShaderJob} {shown : JobResult}

/-! ## One reduction -/

/-- Each summary tells of the variant of one of the pairs, and what was filed for it reproduces. -/
def Accounted (w : Worker σ) (replies : Replies) (pairs : List ProgramPair)
    (reductions : List ReductionSummary) (calls : List DiskCall) : Prop :=
  ∀ summary ∈ reductions, ∃ pair ∈ pairs, ∃ reduced shown result,
    w.Reproduction replies calls summary pair.variant reduced shown result

/-- What is accounted for stays so when more calls are made. -/
theorem Accounted.mono {pairs : List ProgramPair} {reductions : List ReductionSummary}
    {calls calls' : List DiskCall} (h : w.Accounted replies pairs reductions calls)
    (hcalls : calls <+: calls') : w.Accounted replies pairs reductions calls' := by
  intro summary hm
  obtain ⟨pair, hpair, reduced, shown, result, hr⟩ := h summary hm
  exact ⟨pair, hpair, reduced, shown, result, { hr with filed := hr.filed.mono hcalls }⟩

variable [Disk σ] {d d' : Desk (Journaled σ)} {counter : Nat} {condition : Condition}

section
variable {v : Worker σ} {d : Desk σ} {role : Side} {executed : RanJob}

end

/-! ## The work on a queue -/

variable {pairs : List ProgramPair} {pair : ProgramPair} {report report' : WorkerReport}
  {p p' : Pipeline (Journaled σ)} {reason : WorkerEnd}

end Worker

end ShaderShrink

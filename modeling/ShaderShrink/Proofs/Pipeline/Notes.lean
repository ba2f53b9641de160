import ShaderShrink.Pipeline.Work

/-!
# What a worker notes

Each step of the work on a pair says in the report how it went. `Worker.Examines`, `Worker.Files`
and `Worker.Minimizes` list what a step can note, whatever the files, the runner and the comparator
do, and `Worker.WorksOn` puts them together for a pair. There is one lemma for each function of a
worker that says which of these it does; what the report of a worker is like follows from the lists
alone.

Most notes leave the number of pairs that were taken and the list of reductions alone
(`WorkerReport.Noted`): only a reduction adds to that list, and nothing that is done for a pair
changes that number (`Worker.workOn_consumed`).
-/

namespace ShaderShrink

/-- The second report is the first one with notes on what happened to a program. -/
structure WorkerReport.Noted (r r' : WorkerReport) : Prop where
  consumed_eq : r'.consumed = r.consumed
  reductions_eq : r'.reductions = r.reductions

namespace WorkerReport

variable {r r' r'' : WorkerReport}

/-- What is noted in two steps is noted. -/
theorem Noted.trans (h : Noted r r') (h' : Noted r' r'') : Noted r r'' :=
  ⟨h'.consumed_eq.trans h.consumed_eq, h'.reductions_eq.trans h.reductions_eq⟩

end WorkerReport

/-- The events of jobs that could not be dealt with. -/
def WorkerReport.skipNames : List String := ["serialize", "write_job", "oracle_run", "write_result"]

namespace Worker

variable {σ : Type}

/-- What is noted when a program is examined. -/
inductive Examines (w : Worker σ) (job : ShaderJob) (counter : Nat) (r : WorkerReport) :
    Execution → WorkerReport → Prop
  | died : w.Examines job counter r .died r
  | invalid (code : String) : w.Examines job counter r .handled
      (w.noteFail job counter "validate" code { r with invalid := r.invalid + 1 })
  | skipped {event : String} (h : event ∈ WorkerReport.skipNames) (code : String) :
    w.Examines job counter r .handled (w.skip job counter event code r)
  | ran (executed : RanJob) :
    w.Examines job counter r (.ran executed) (w.notePass job counter "oracle_run" r)

/-- What is noted when a fault or a mismatch is filed, or there is none. -/
inductive Files (w : Worker σ) (job : ShaderJob) (counter : Nat) (r : WorkerReport) :
    WorkerReport → Prop
  | nothing : w.Files job counter r r
  | fault (status : JobStatus) (ignored : Bool) (h : ignored = true → status = .crash) :
    w.Files job counter r
      (w.notePass job counter "fault_filed" (countFault status ignored r))
  | mismatch : w.Files job counter r
      (w.notePass job counter "mismatch_filed" { r with mismatches := r.mismatches + 1 })
  | lost {event : String} (h : event ∈ ["fault_filed", "mismatch_filed"]) (code : String) :
    w.Files job counter r (w.noteFail job counter event code r)

/-- What is noted when a job is minimized, or is not to be. -/
inductive Minimizes (w : Worker σ) (job : ShaderJob) (counter : Nat) (r : WorkerReport) :
    Condition → WorkerReport → Prop
  | died : w.Minimizes job counter r .died r
  | nothing : w.Minimizes job counter r .fit r
  | failed (code : String) (h : w.config.mode = .reduce) :
    w.Minimizes job counter r .fit (w.noteFail job counter "reduce" code r)
  | reduced (summary : ReductionSummary) (h : w.config.mode = .reduce)
      (hcounter : summary.counter = counter) (hname : summary.jobName = job.name) :
    w.Minimizes job counter r .fit
      (w.notePass job counter "reduce" { r with reductions := r.reductions ++ [summary] })

/-- What is noted when the reference program of a pair is worked on. -/
inductive WorksOnReference (w : Worker σ) (pair : ProgramPair) (counter : Nat) (r : WorkerReport) :
    Condition → WorkerReport → Prop
  | died {r₁ : WorkerReport} (h₁ : w.Examines pair.reference counter r .died r₁) :
    w.WorksOnReference pair counter r .died r₁
  | handled {r₁ : WorkerReport} (h₁ : w.Examines pair.reference counter r .handled r₁) :
    w.WorksOnReference pair counter r .fit r₁
  | ran {executed : RanJob} {r₁ r₂ r₃ : WorkerReport}
      (h₁ : w.Examines pair.reference counter r (.ran executed) r₁)
      (h₂ : w.Files pair.reference counter r₁ r₂) (h₃ : w.Files pair.variant counter r₂ r₃) :
    w.WorksOnReference pair counter r .fit r₃

/-- What is noted when a pair is worked on. -/
inductive WorksOn (w : Worker σ) (pair : ProgramPair) (counter : Nat) (r : WorkerReport) :
    Condition → WorkerReport → Prop
  | died {r₁ : WorkerReport} (h₁ : w.Examines pair.variant counter r .died r₁) :
    w.WorksOn pair counter r .died r₁
  | handled {r₁ : WorkerReport} (h₁ : w.Examines pair.variant counter r .handled r₁) :
    w.WorksOn pair counter r .fit r₁
  | broken {executed : RanJob} {r₁ r₂ r₃ : WorkerReport}
      (h₁ : w.Examines pair.variant counter r (.ran executed) r₁)
      (h₂ : w.Files pair.variant counter r₁ r₂)
      (h₃ : w.Minimizes pair.variant counter r₂ .died r₃) :
    w.WorksOn pair counter r .died r₃
  | variant {executed : RanJob} {r₁ r₂ r₃ : WorkerReport}
      (h₁ : w.Examines pair.variant counter r (.ran executed) r₁)
      (h₂ : w.Files pair.variant counter r₁ r₂) (h₃ : w.Minimizes pair.variant counter r₂ .fit r₃)
      (honly : w.config.variantsOnly = true) :
    w.WorksOn pair counter r .fit r₃
  | both {executed : RanJob} {r₁ r₂ r₃ r₄ : WorkerReport} {condition : Condition}
      (h₁ : w.Examines pair.variant counter r (.ran executed) r₁)
      (h₂ : w.Files pair.variant counter r₁ r₂) (h₃ : w.Minimizes pair.variant counter r₂ .fit r₃)
      (honly : w.config.variantsOnly = false)
      (h₄ : w.WorksOnReference pair counter r₃ condition r₄) :
    w.WorksOn pair counter r condition r₄

section
variable {w : Worker σ} {r r' : WorkerReport} {job : ShaderJob} {counter : Nat} {pair : ProgramPair}
  {execution : Execution} {condition : Condition}

/-- Examining a program takes no pair and records no reduction. -/
theorem Examines.noted (h : w.Examines job counter r execution r') : r.Noted r' := by
  cases h <;> exact ⟨rfl, rfl⟩

/-- Filing a finding takes no pair and records no reduction. -/
theorem Files.noted (h : w.Files job counter r r') : r.Noted r' := by
  cases h <;> exact ⟨rfl, rfl⟩

/-- Minimizing a program takes no pair. -/
theorem Minimizes.consumed_eq (h : w.Minimizes job counter r condition r') :
    r'.consumed = r.consumed := by
  cases h <;> rfl

/-- Working on a reference program takes no pair and records no reduction. -/
theorem WorksOnReference.noted (h : w.WorksOnReference pair counter r condition r') :
    r.Noted r' := by
  cases h with
  | died h₁ | handled h₁ => exact h₁.noted
  | ran h₁ h₂ h₃ => exact (h₁.noted.trans h₂.noted).trans h₃.noted

/-- Working on a pair takes no further one. -/
theorem WorksOn.consumed_eq (h : w.WorksOn pair counter r condition r') :
    r'.consumed = r.consumed := by
  cases h with
  | died h₁ | handled h₁ => exact h₁.noted.consumed_eq
  | broken h₁ h₂ h₃ | variant h₁ h₂ h₃ =>
    exact h₃.consumed_eq.trans (h₁.noted.trans h₂.noted).consumed_eq
  | both h₁ h₂ h₃ _ h₄ =>
    exact h₄.noted.consumed_eq.trans
      (h₃.consumed_eq.trans (h₁.noted.trans h₂.noted).consumed_eq)

end

/-! ## The functions of a worker -/

variable [Disk σ] {w : Worker σ} {world : σ} {r : WorkerReport} {d : Desk σ} {job : ShaderJob}
  {role : Side} {counter : Nat} {jobFile resultFile : String} {pair : ProgramPair}
  {executed reference variant : RanJob} {result : JobResult} {status : JobStatus}
  {outcome : ReductionOutcome}

/-- Rejecting a program notes that it is invalid, or that it could not be written down. -/
theorem rejectInvalid_spec :
    w.Examines job counter r .handled
      (w.rejectInvalid job counter jobFile ⟨world, r⟩).report := by
  unfold rejectInvalid
  rcases w.archive.keepInvalid counter [jobFile] world with ⟨_ | _, world⟩ <;> exact .invalid _

/-- Running a program notes that it ran, or why it was left out. -/
theorem runJob_spec : w.Examines job counter r
    (w.runJob job counter jobFile resultFile ⟨world, r⟩).1
    (w.runJob job counter jobFile resultFile ⟨world, r⟩).2.report := by
  unfold runJob
  rcases w.runner.run job.encode world with ⟨result | _ | _, world⟩
  · dsimp only
    rcases Disk.write resultFile result.toJson.pretty world with ⟨_ | _, world⟩
    · exact .skipped (by simp [WorkerReport.skipNames]) _
    · exact .ran _
  · exact .skipped (by simp [WorkerReport.skipNames]) _
  · exact .died

/-- Examining a program notes what `Examines` lists. -/
theorem examine_spec : w.Examines job counter d.report (w.examine job role counter d).1
    (w.examine job role counter d).2.report := by
  unfold examine
  dsimp only
  rcases Disk.write (Path.join w.workDir (role.stem ++ ".json")) job.encode d.world with
    ⟨_ | _, world⟩
  · exact .skipped (by simp [WorkerReport.skipNames]) _
  · dsimp only
    split
    · exact runJob_spec
    · exact rejectInvalid_spec

/-- Filing a fault notes what `Files` lists. -/
theorem archiveFault_spec :
    w.Files job counter d.report (w.archiveFault job executed counter d).report := by
  unfold archiveFault
  dsimp only
  split
  · have hcrash (h : w.isIgnored executed.result = true) : executed.result.status = .crash := by
      rw [isIgnored, Bool.and_eq_true] at h
      exact of_decide_eq_true h.1
    rcases w.archive.keepFault executed.result.status (w.isIgnored executed.result) counter
      executed.artifacts d.world with ⟨_ | _, world⟩
    · exact .lost (by simp) _
    · exact .fault _ _ hcrash
  · exact .nothing

/-- Filing a mismatch notes what `Files` lists. -/
theorem archiveMismatch_spec : w.Files pair.variant counter d.report
    (w.archiveMismatch pair reference variant counter d).report := by
  unfold archiveMismatch
  rcases w.comparator reference.result variant.result d.world with ⟨compared, world⟩
  cases compared with
  | consistent | unsupported => exact .nothing
  | mismatch detail =>
    dsimp only
    rcases w.archive.keepMismatch counter (reference.artifacts ++ variant.artifacts) world with
      ⟨_ | _, world⟩
    · exact .lost (by simp) _
    · exact .mismatch

/-- Filing the outcome of a reduction notes the reduction, or that it failed. -/
theorem archiveOutcome_spec (h : w.config.mode = .reduce) :
    w.Minimizes job counter r .fit
      (w.archiveOutcome job status counter outcome ⟨world, r⟩).report := by
  unfold archiveOutcome
  cases outcome.job job.name job.language with
  | error e => exact .failed _ h
  | ok reduced =>
    dsimp only
    rcases w.archive.keepReduction status counter reduced outcome.report world with
      ⟨_ | _, world⟩
    · exact .failed _ h
    · exact .reduced _ h rfl rfl

/-- Minimizing a program notes what `Minimizes` lists. -/
theorem reduce_spec (h : w.config.mode = .reduce) : w.Minimizes job counter d.report
    (w.reduce job result counter d).1 (w.reduce job result counter d).2.report := by
  unfold reduce
  rcases (w.reducer job result counter).reduce (.ofProgram job.program) (.start d.world) with
    ⟨outcome, oracle⟩
  dsimp only
  split
  · exact .died
  · cases outcome with
    | error e => exact .failed e.code h
    | ok outcome =>
      dsimp only
      exact archiveOutcome_spec h

/-- Minimizing a program if that is wanted notes what `Minimizes` lists. -/
theorem reduceIfWanted_spec : w.Minimizes job counter d.report
    (w.reduceIfWanted job result counter d).1
    (w.reduceIfWanted job result counter d).2.report := by
  unfold reduceIfWanted
  split
  · next h => exact reduce_spec h.1
  · exact .nothing

/-- Working on a reference program notes what `WorksOnReference` lists. -/
theorem workOnReference_spec : w.WorksOnReference pair counter d.report
    (w.workOnReference pair variant counter d).1
    (w.workOnReference pair variant counter d).2.report := by
  have h₁ : w.Examines pair.reference counter d.report
      (w.examine pair.reference .reference counter d).1 _ := examine_spec
  unfold workOnReference
  rcases he : w.examine pair.reference .reference counter d with ⟨execution, d₁⟩
  rw [he] at h₁
  cases execution with
  | died => exact .died h₁
  | handled => exact .handled h₁
  | ran reference => exact .ran h₁ archiveFault_spec archiveMismatch_spec

/-- Working on a pair notes what `WorksOn` lists. -/
theorem workOn_spec : w.WorksOn pair counter d.report (w.workOn pair counter d).1
    (w.workOn pair counter d).2.report := by
  have h₁ : w.Examines pair.variant counter d.report
      (w.examine pair.variant .variant counter d).1 _ := examine_spec
  unfold workOn
  rcases he : w.examine pair.variant .variant counter d with ⟨execution, d₁⟩
  rw [he] at h₁
  cases execution with
  | died => exact .died h₁
  | handled => exact .handled h₁
  | ran variant =>
    obtain ⟨d₂, hd₂⟩ : ∃ d₂, w.archiveFault pair.variant variant counter d₁ = d₂ := ⟨_, rfl⟩
    have h₂ : w.Files pair.variant counter d₁.report d₂.report := hd₂ ▸ archiveFault_spec
    have h₃ : w.Minimizes pair.variant counter d₂.report
        (w.reduceIfWanted pair.variant variant.result counter d₂).1 _ := reduceIfWanted_spec
    dsimp only
    rw [hd₂]
    rcases hr : w.reduceIfWanted pair.variant variant.result counter d₂ with ⟨condition, d₃⟩
    rw [hr] at h₃
    cases condition with
    | died => exact .broken h₁ h₂ h₃
    | fit =>
      dsimp only
      split
      · next honly => exact .variant h₁ h₂ h₃ honly
      · next honly => exact .both h₁ h₂ h₃ (Bool.eq_false_iff.2 honly) workOnReference_spec

/-- Whatever happens to its programs, the work on a pair leaves the number of pairs alone. -/
theorem workOn_consumed : (w.workOn pair counter d).2.report.consumed = d.report.consumed :=
  workOn_spec.consumed_eq

end Worker

end ShaderShrink

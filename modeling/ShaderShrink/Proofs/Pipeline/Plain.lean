import ShaderShrink.Proofs.Pipeline.Notes

/-!
# The plain loop over some pairs

What a worker does, told without a queue: it works on one pair after another until it has done as
many as its limit allows or there are none left (`Worker.plain`). A worker that finds all pairs in a
closed queue does the same (`Worker.serve_closed`).
-/

namespace ShaderShrink

namespace JobQueue

variable {α : Type} {q : JobQueue α} {item : α} {items : List α}

/-- The first item is taken from a queue that is not cancelled. -/
theorem take?_cons (hcancelled : q.cancelled = false) (h : q.items = item :: items) :
    q.take? = some (.item item, { q with items }) := by
  rw [take?, hcancelled, if_neg Bool.false_ne_true, h]

/-- An empty queue has nothing to give, and says so if it is closed. -/
theorem take?_nil (hcancelled : q.cancelled = false) (h : q.items = []) :
    q.take? = if q.closed then some (.closed, q) else none := by
  rw [take?, hcancelled, if_neg Bool.false_ne_true, h]

end JobQueue

namespace Worker

variable {σ : Type} [Disk σ]

/-- Works on some pairs in their order, the first of which gets the number `counter`: gives the
report behind them, or says what ended the work. -/
def workThrough (w : Worker σ) :
    List ProgramPair → Nat → Desk σ → Except WorkerEnd WorkerReport × σ
  | [], _, d => (.ok d.report, d.world)
  | pair :: rest, counter, d =>
    match Archive.resetDir w.workDir d.world with
    | (.error e, world) => (.error (.failed (.scratch e)), world)
    | (.ok _, world) =>
      match w.workOn pair counter
        { world, report := { d.report with consumed := d.report.consumed + 1 } } with
      | (.died, d) => (.error .died, d.world)
      | (.fit, d) => w.workThrough rest (counter + 1) d

/-- Works on the first `remaining` of some pairs. -/
def plainFrom (w : Worker σ) (remaining : Nat) (pairs : List ProgramPair) (counter : Nat)
    (d : Desk σ) : WorkerEnd × σ :=
  match w.workThrough (pairs.take remaining) counter d with
  | (.error reason, world) => (reason, world)
  | (.ok report, world) =>
    let stop := if remaining ≤ pairs.length then .limitReached else .queueClosed
    (.finished { report with stop }, world)

/-- Works on the first of some pairs, as many as the limit of the worker allows, with the numbers
from zero on. -/
def plain (w : Worker σ) (pairs : List ProgramPair) (world : σ) : WorkerEnd × σ :=
  w.plainFrom w.config.limit.toNat pairs 0 { world, report := .start w.id }

section
variable {w : Worker σ} {remaining counter : Nat} {pair : ProgramPair}
  {rest pairs : List ProgramPair} {d : Desk σ} {p p' : Pipeline σ} {report : WorkerReport}
  {world world' : σ}

/-- The plain loop ends at the limit. -/
theorem plainFrom_zero (w : Worker σ) (pairs : List ProgramPair) (counter : Nat) (d : Desk σ) :
    w.plainFrom 0 pairs counter d =
      (.finished { d.report with stop := .limitReached }, d.world) := by
  simp [plainFrom, workThrough]

/-- The plain loop ends where there are no more pairs. -/
theorem plainFrom_nil (w : Worker σ) (remaining counter : Nat) (d : Desk σ) :
    w.plainFrom (remaining + 1) [] counter d =
      (.finished { d.report with stop := .queueClosed }, d.world) := by
  simp [plainFrom, workThrough]

/-- One pair after the other: what a worker does with a pair from the queue is what the loop does
with it. -/
theorem plainFrom_cons (w : Worker σ) (remaining : Nat) (pair : ProgramPair)
    (rest : List ProgramPair) (report : WorkerReport) (p : Pipeline σ) :
    w.plainFrom (remaining + 1) (pair :: rest) p.counter { world := p.world, report } =
      match w.handle pair report p with
      | (.ok report, p) => w.plainFrom remaining rest p.counter { world := p.world, report }
      | (.error reason, p) => (reason, p.world) := by
  unfold plainFrom handle
  rw [List.take_succ_cons, workThrough, List.length_cons]
  dsimp only
  rcases Archive.resetDir w.workDir p.world with ⟨_ | _, world⟩
  · rfl
  · dsimp only
    rcases w.workOn pair p.counter ⟨world, { report with consumed := report.consumed + 1 }⟩ with
      ⟨_ | _, d⟩
    · simp only [Nat.add_le_add_iff_right]
    · rfl

/-- The work on a pair does not touch the queue. -/
theorem queue_of_handle {result : Except WorkerEnd WorkerReport}
    (h : w.handle pair report p = (result, p')) : p'.queue = p.queue := by
  unfold handle at h
  dsimp only at h
  split at h
  · cases h
    rfl
  · split at h
    · cases h
      rfl
    · cases h
      rfl

/-- Each pair that is worked on is counted, whatever goes wrong with it. -/
theorem workThrough_consumed (h : w.workThrough pairs counter d = (.ok report, world)) :
    report.consumed = d.report.consumed + pairs.length := by
  induction pairs generalizing counter d with
  | nil =>
    cases h
    rfl
  | cons pair rest ih =>
    rw [workThrough] at h
    split at h
    · cases h
    · split at h
      · cases h
      · next d' hworked =>
        have hconsumed := congrArg (·.2.report.consumed) hworked
        simp only [workOn_consumed] at hconsumed
        rw [ih h, List.length_cons, ← hconsumed]
        omega

/-- Only errors and breakdowns end the work on some pairs early. -/
theorem workThrough_ne_finished :
    w.workThrough pairs counter d ≠ (.error (.finished report), world) := by
  induction pairs generalizing counter d with
  | nil => nofun
  | cons pair rest ih =>
    rw [workThrough]
    split
    · nofun
    · split
      · nofun
      · exact ih

/-- If the loop ends with a report, it has done as many pairs as the limit allows and as there are;
it says that it stopped at the limit exactly if there were as many. -/
theorem plain_finished (h : w.plain pairs world = (.finished report, world')) :
    report.consumed = min w.config.limit.toNat pairs.length ∧
      (report.stop = .limitReached ↔ w.config.limit.toNat ≤ pairs.length) := by
  unfold plain plainFrom at h
  split at h
  · next reason _ hworked =>
    cases h
    exact absurd hworked workThrough_ne_finished
  · next report' _ hworked =>
    cases h
    refine ⟨?_, by simp⟩
    have hconsumed := workThrough_consumed hworked
    rw [List.length_take] at hconsumed
    simpa [WorkerReport.start] using hconsumed

/-- A worker that finds all pairs in a closed queue does what the loop does. -/
theorem serve_closed (w : Worker σ) (remaining : Nat) (report : WorkerReport) (p : Pipeline σ)
    (hclosed : p.queue.closed = true) (hcancelled : p.queue.cancelled = false) :
    ((w.serve remaining report p).1, (w.serve remaining report p).2.world) =
      w.plainFrom remaining p.queue.items p.counter { world := p.world, report } := by
  induction remaining generalizing report p with
  | zero => rw [plainFrom_zero, serve]
  | succ remaining ih =>
    cases hitems : p.queue.items with
    | nil => rw [serve, JobQueue.take?_nil hcancelled hitems, hclosed, if_pos rfl, plainFrom_nil]
    | cons pair items =>
      rw [serve, JobQueue.take?_cons hcancelled hitems]
      have hplain := plainFrom_cons w remaining pair items report
        { p with queue := { p.queue with items } }
      dsimp only at hplain ⊢
      rw [hplain]
      rcases hhandled : w.handle pair report { p with queue := { p.queue with items } } with
        ⟨reason | report', p'⟩
      · rfl
      · have hqueue := queue_of_handle hhandled
        dsimp only
        rw [ih report' p' (by rw [hqueue]; exact hclosed) (by rw [hqueue]; exact hcancelled),
          hqueue]

end

end Worker

end ShaderShrink

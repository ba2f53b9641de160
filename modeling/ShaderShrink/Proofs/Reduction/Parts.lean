import ShaderShrink.Reduction.Run

/-!
# The parts of a reduction

The definitions of a reduction pass its state from one reading of the clock to the next. This module
takes them apart: what trying a queue does with an empty queue and with a first opportunity
(`Reducer.attemptAll_nil`, `Reducer.attemptAll_cons`), and that a search is a first question and
rounds after it (`Reducer.search_eq`, `Reducer.rounds_succ`).
-/

namespace ShaderShrink

open Arena

variable {σ : Type}

/-- The state after a reading of the clock. -/
def Run.ticked (run : Run σ) : Run σ := { run with readings := run.readings + 1 }

/-- The state after a look for opportunities. -/
def Run.scanned (run : Run σ) : Run σ :=
  { run with stats := { run.stats with scans := run.stats.scans + 1 } }

namespace Reducer

/-- Whether the time is up at the next reading of the clock. -/
def timeUp (r : Reducer σ) (run : Run σ) : Bool :=
  r.config.budget.timeBudgetMs.any fun ms => ms.toNat ≤ r.clock run.readings

/-- The question about the unchanged program, if it is to be asked. -/
def check (r : Reducer σ) (run : Run σ) : Option Halt × Run σ :=
  if r.config.checkInitial then r.askFirst run else (none, run)

/-- One look for opportunities and the tries after it. -/
def round (r : Reducer σ) (run : Run σ) : Option Halt × Run σ :=
  if r.timeUp run then (some (.stopped .timeBudgetExhausted), run.ticked)
  else if r.finder.find run.arena = [] then (some (.stopped .fixpoint), run.ticked.scanned)
  else if r.commitsSpent run then (some (.stopped .commitBudgetExhausted), run.ticked.scanned)
  else r.attemptAll (r.finder.find run.arena) run.ticked.scanned

/-- Goes on with `f`, unless there is a reason to halt. -/
def andThen (x : Option Halt × Run σ) (f : Run σ → Halt × Run σ) : Halt × Run σ :=
  match x with
  | (none, run) => f run
  | (some halt, run) => (halt, run)

/-- The state at the start of a reduction of a program. -/
def initial (p : Program) (s : σ) : Run σ :=
  ⟨ofProgram p, s, [], .start (ofProgram p).liveCount p.digest, [], 0⟩

section
variable {r : Reducer σ} {run : Run σ} {o : Opportunity} {os : List Opportunity}

/-- A look at the clock tells whether the time is up. -/
theorem look_eq : r.look run = (r.timeUp run, run.ticked) := rfl

/-- Where there is nothing to try, the program is a fixpoint unless the time is up. -/
theorem attemptAll_nil : r.attemptAll [] run =
    (some (.stopped (if r.timeUp run then .timeBudgetExhausted else .fixpoint)), run.ticked) := by
  rw [attemptAll.eq_def]
  simp only [look_eq]
  cases r.timeUp run <;> rfl

/-- The first opportunity is tried unless the time is up, and the others are if it comes to
nothing. -/
theorem attemptAll_cons : r.attemptAll (o :: os) run =
    if r.timeUp run then (some (.stopped .timeBudgetExhausted), run.ticked)
    else match r.attempt o run.ticked with
      | (.next, run) => r.attemptAll os run
      | (.committed, run) => (none, run)
      | (.halted halt, run) => (some halt, run) := by
  rw [attemptAll.eq_def]
  simp only [look_eq]
  cases r.timeUp run <;> rfl

/-- A look for opportunities ends the reduction if there are none, or if all commits are spent. -/
theorem scan_eq : r.scan run =
    (if r.finder.find run.arena = [] then .error .fixpoint
      else if r.commitsSpent run then .error .commitBudgetExhausted
      else .ok (r.finder.find run.arena), run.scanned) := by
  have hspent : r.commitsSpent run.scanned = r.commitsSpent run := rfl
  rw [Run.scanned] at hspent ⊢
  simp only [scan, List.isEmpty_iff, hspent]
  split
  · rfl
  · split <;> rfl

/-- The first round comes first. -/
theorem rounds_succ (n : Nat) : r.rounds (n + 1) run = andThen (r.round run) (r.rounds n) := by
  have hspent : r.commitsSpent run.ticked = r.commitsSpent run := rfl
  have harena : run.ticked.arena = run.arena := rfl
  rw [rounds, round]
  simp only [look_eq]
  cases r.timeUp run with
  | true => rfl
  | false =>
    simp only [scan_eq, hspent, harena]
    by_cases hf : r.finder.find run.arena = []
    · simp only [hf, if_true]
      rfl
    · simp only [hf, if_false]
      cases r.commitsSpent run <;> rfl

/-- The question about the unchanged program comes before the rounds, and these are enough for the
nodes of the program. -/
theorem search_eq : r.search run =
    andThen (r.check run) fun run => r.rounds (run.arena.liveCount + 1) run := by
  rw [search, check]
  rcases (if r.config.checkInitial then r.askFirst run else (none, run)) with ⟨_ | _, run⟩ <;> rfl

end

end Reducer

end ShaderShrink

import ShaderShrink.Proofs.Reduction.Search

/-!
# The loop of a reduction

`Reducer.search` has a loop over rounds and, inside each round, a loop over opportunities. Here the
two are one loop: a reduction that is under way is in a phase (`Phase`), and `Reducer.advance` is
one turn of the loop. The loop has no bound of its own; that it ends, and with what the search gives
(`Reducer.yields_search`), shows that the bound on the rounds of a search never cuts one short.
-/

namespace ShaderShrink

open Arena

variable {σ : Type}

/-- What a reduction does in the next turn of its loop. -/
inductive Phase where
  /-- It looks for opportunities. -/
  | scanning
  /-- It tries the first opportunity of the queue. -/
  | trying (queue : List Opportunity)
  | done (halt : Halt)
  deriving DecidableEq, Repr

/-- A reduction that is under way. -/
structure Driver (σ : Type) where
  phase : Phase
  run : Run σ

/-- Goes on with a new look for opportunities, unless there is a reason to halt. -/
def Driver.resume : Option Halt × Run σ → Driver σ
  | (none, run) => ⟨.scanning, run⟩
  | (some halt, run) => ⟨.done halt, run⟩

namespace Reducer

/-- One turn of the loop. -/
def advance (r : Reducer σ) (d : Driver σ) : Driver σ :=
  match d.phase with
  | .done _ => d
  | .scanning =>
    if r.timeUp d.run then ⟨.done (.stopped .timeBudgetExhausted), d.run.ticked⟩
    else match r.scan d.run.ticked with
      | (.error reason, run) => ⟨.done (.stopped reason), run⟩
      | (.ok found, run) => ⟨.trying found, run⟩
  | .trying queue =>
    if r.timeUp d.run then ⟨.done (.stopped .timeBudgetExhausted), d.run.ticked⟩
    else match queue with
      | [] => ⟨.done (.stopped .fixpoint), d.run.ticked⟩
      | o :: rest =>
        match r.attempt o d.run.ticked with
        | (.next, run) => ⟨.trying rest, run⟩
        | (.committed, run) => ⟨.scanning, run⟩
        | (.halted halt, run) => ⟨.done halt, run⟩

/-- The loop at its start, after the question about the unchanged program if it is to be asked. -/
def opening (r : Reducer σ) (p : Program) (s : σ) : Driver σ := .resume (r.check (initial p s))

/-- The loop ends after some turns, and this is what it ends with. -/
def Yields (r : Reducer σ) (d : Driver σ) (result : Halt × Run σ) : Prop :=
  ∃ turns, r.advance^[turns] d = ⟨.done result.1, result.2⟩

section
variable {r : Reducer σ} {p : Program} {d : Driver σ} {run : Run σ} {os : List Opportunity}
  {result : Halt × Run σ}

/-- A loop that is done yields its result. -/
theorem Yields.of_done (result : Halt × Run σ) : r.Yields ⟨.done result.1, result.2⟩ result :=
  ⟨0, rfl⟩

/-- A loop yields what it yields after one turn. -/
theorem Yields.of_advance (h : r.Yields (r.advance d) result) : r.Yields d result := by
  obtain ⟨turns, h⟩ := h
  exact ⟨turns + 1, h⟩

/-- The loop tries a queue as `attemptAll` does, and goes on with what comes of it. -/
theorem Yields.of_attemptAll (h : r.Yields (.resume (r.attemptAll os run)) result) :
    r.Yields ⟨.trying os, run⟩ result := by
  induction os generalizing run with
  | nil =>
    refine .of_advance ?_
    rw [attemptAll_nil] at h
    rw [advance]
    cases hup : r.timeUp run <;> simpa [hup, Driver.resume] using h
  | cons o rest ih =>
    refine .of_advance ?_
    rw [attemptAll_cons] at h
    rw [advance]
    cases hup : r.timeUp run with
    | true => simpa [hup, Driver.resume] using h
    | false =>
      simp only [hup, Bool.false_eq_true, if_false] at h ⊢
      rcases he : r.attempt o run.ticked with ⟨_ | _ | _, run'⟩
      all_goals rw [he] at h
      · exact ih h
      · exact h
      · exact h

/-- One turn looks for opportunities unless the time is up, and they are tried from then on unless
there are none or all commits are spent. -/
theorem advance_scanning : r.advance ⟨.scanning, run⟩ =
    if r.timeUp run then ⟨.done (.stopped .timeBudgetExhausted), run.ticked⟩
    else if r.finder.find run.arena = [] then ⟨.done (.stopped .fixpoint), run.ticked.scanned⟩
    else if r.commitsSpent run then
      ⟨.done (.stopped .commitBudgetExhausted), run.ticked.scanned⟩
    else ⟨.trying (r.finder.find run.arena), run.ticked.scanned⟩ := by
  have hspent : r.commitsSpent run.ticked = r.commitsSpent run := rfl
  have harena : run.ticked.arena = run.arena := rfl
  simp only [advance, scan_eq, hspent, harena]
  split
  · rfl
  · by_cases hf : r.finder.find run.arena = []
    · simp only [hf, if_true]
    · simp only [hf, if_false]
      cases r.commitsSpent run <;> rfl

/-- A round is a look for opportunities and the tries after it. -/
theorem Yields.of_round (h : r.Yields (.resume (r.round run)) result) :
    r.Yields ⟨.scanning, run⟩ result := by
  refine .of_advance ?_
  rw [round] at h
  rw [advance_scanning]
  split at h
  · next hup => rwa [if_pos hup]
  · next hup =>
    rw [if_neg hup]
    split at h
    · next hf => rwa [if_pos hf]
    · next hf =>
      rw [if_neg hf]
      split at h
      · next hs => rwa [if_pos hs]
      · next hs =>
        rw [if_neg hs]
        exact .of_attemptAll h

/-- The loop gives what as many rounds give as the program has nodes. -/
theorem yields_rounds {n : Nat} (ha : run.arena = ofProgram p) (hn : p.size ≤ n) :
    r.Yields ⟨.scanning, run⟩ (r.rounds n run) := by
  induction n generalizing p run with
  | zero => cases hn
  | succ n ih =>
    refine .of_round ?_
    have hr := rounded_round (r := r) ha
    rw [rounds_succ]
    rcases he : r.round run with ⟨halt, run'⟩
    rw [he] at hr
    cases hr with
    | stopped => exact .of_done (_, run')
    | kept hq ha' =>
      have hlt := FinderConfig.size_lt_of_mem_candidates hq
      exact ih ha' (by omega)

/-- The loop ends, and it gives what the search gives. -/
theorem yields_search (r : Reducer σ) (p : Program) (s : σ) :
    r.Yields (r.opening p s) (r.search (initial p s)) := by
  have hstart : (initial p s).arena = ofProgram p := rfl
  obtain ⟨halt, run, he, ha, -⟩ := r.check_cases hstart
  rw [opening, search_eq, he]
  cases halt with
  | none =>
    refine yields_rounds ha ?_
    rw [ha, liveCount_ofProgram]
    exact Nat.le_succ _
  | some halt => exact .of_done (halt, run)

end

end Reducer

end ShaderShrink

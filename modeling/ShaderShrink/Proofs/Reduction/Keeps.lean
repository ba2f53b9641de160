import ShaderShrink.Proofs.Reduction.Search

/-!
# What a reduction keeps on the way

`Reducer.Invariant` is for properties of the program and the ledger. `Reducer.Upholds` is for
properties of the program and the whole state of a reduction, with its counts, its events and its
readings of the clock: what every reading, every look for opportunities and every try uphold, and
what holds behind the first question, holds at the end (`Upholds.search`). `Reducer.Keeps` is for
properties of the state alone that the first question keeps as well (`Keeps.ended`).

The counts of things that go wrong are such a property. `Reducer.reduce_clean` says that a reduction
of a program gives an outcome in which they are zero: no precondition fails, no edit is refused, and
every candidate can be read.
-/

namespace ShaderShrink

open Arena

variable {σ : Type}

namespace Reducer

/-- The rounds of a reduction uphold a property of the program that it has come to and of its
state. -/
structure Upholds (r : Reducer σ) (I : Program → Run σ → Prop) : Prop where
  ticked {p : Program} {run : Run σ} : I p run → I p run.ticked
  scanned {p : Program} {run : Run σ} : I p run → I p run.scanned
  kept {p q : Program} {o : Opportunity} {run : Run σ} :
    o ∈ r.finder.find (ofProgram p) → p.change? o.change = some q →
    r.questionsSpent run = false → r.verdict q run.oracle = .interesting →
    I p run → I q (r.kept run q (record o run))
  rejected {p q : Program} {o : Opportunity} {run : Run σ} {back : Arena} :
    o ∈ r.finder.find (ofProgram p) → p.change? o.change = some q →
    r.questionsSpent run = false → r.verdict q run.oracle ≠ .interesting →
    (ofProgram p).Padded back → I p run → I p (r.turnedDown run q back)

/-- Everything that a reduction does on the way keeps the property. -/
structure Keeps (r : Reducer σ) (I : Run σ → Prop) : Prop where
  ticked {run : Run σ} : I run → I run.ticked
  scanned {run : Run σ} : I run → I run.scanned
  checked {p : Program} {run run' : Run σ} {halt : Option Halt} :
    r.Checked p run halt run' → I run → I run'
  tried {p q : Program} {o : Opportunity} {run run' : Run σ} {step : Step} :
    r.Tried p q o run step run' → I run → I run'

section
variable {r : Reducer σ} {p q : Program} {run : Run σ} {s : σ} {os : List Opportunity}
  {result : Option Halt × Run σ}

/-! ## Properties of the program and the state -/

namespace Upholds

variable {I : Program → Run σ → Prop} (hI : r.Upholds I)
include hI

/-- Trying opportunities upholds the property. -/
theorem course (hc : r.Course p os run result) (h : I p run) :
    ∃ q, I q result.2 ∧ (result.1 = none → result.2.arena = ofProgram q) := by
  induction hc with
  | late | exhausted | spent => exact ⟨p, hI.ticked h, nofun⟩
  | @kept _ _ q _ _ ho hq ht =>
    cases ht with
    | kept hs hv => exact ⟨q, hI.kept ho hq hs hv (hI.ticked h), fun _ => rfl⟩
  | rejected ho hq ht _ ih =>
    cases ht with
    | rejected hs hv hb => exact ih (hI.rejected ho hq hs hv hb (hI.ticked h))

/-- A round upholds the property. -/
theorem round (ha : run.arena = ofProgram p) (h : I p run) :
    ∃ q, I q (r.round run).2 ∧ ((r.round run).1 = none → (r.round run).2.arena = ofProgram q) := by
  have hs := hI.scanned (hI.ticked h)
  have hpad : (ofProgram p).Padded run.ticked.scanned.arena := ha ▸ .refl
  unfold Reducer.round
  split
  · exact ⟨p, hI.ticked h, nofun⟩
  · split
    · exact ⟨p, hs, nofun⟩
    · split
      · exact ⟨p, hs, nofun⟩
      · rw [ha]
        exact hI.course (course_attemptAll (fun _ => id) hpad) hs

/-- Rounds uphold the property. -/
theorem rounds {n : Nat} (ha : run.arena = ofProgram p) (h : I p run) :
    ∃ q, I q (r.rounds n run).2 := by
  induction n generalizing p run with
  | zero => exact ⟨p, h⟩
  | succ n ih =>
    obtain ⟨q, hq, ha'⟩ := hI.round ha h
    rw [rounds_succ]
    rcases he : r.round run with ⟨_ | halt, run'⟩
    all_goals rw [he] at hq ha'
    · exact ih (ha' rfl) hq
    · exact ⟨q, hq⟩

/-- What holds behind the question about the unchanged program holds at the end. -/
theorem search (ha : run.arena = ofProgram p) (h : I p (r.check run).2) :
    ∃ q, I q (r.search run).2 := by
  obtain ⟨halt, run', he, ha', -⟩ := r.check_cases ha
  rw [he] at h
  rw [search_eq, he]
  cases halt with
  | none => exact hI.rounds ha' h
  | some halt => exact ⟨p, h⟩

end Upholds

/-! ## Properties of the state -/

namespace Keeps

variable {I : Run σ → Prop} (hI : r.Keeps I)
include hI

/-- What is kept on the way is upheld, whatever the program. -/
theorem upholds : r.Upholds fun _ => I where
  ticked := hI.ticked
  scanned := hI.scanned
  kept {p _ _ _} _ _ hs hv := hI.tried (p := p) (.kept hs hv)
  rejected {_ _ o _ _} _ _ hs hv hb := hI.tried (o := o) (.rejected hs hv hb)

/-- Trying opportunities keeps the property. -/
theorem course (hc : r.Course p os run result) (h : I run) : I result.2 := by
  obtain ⟨-, h', -⟩ := hI.upholds.course hc h
  exact h'

/-- A round keeps the property. -/
theorem round (ha : run.arena = ofProgram p) (h : I run) : I (r.round run).2 := by
  obtain ⟨-, h', -⟩ := hI.upholds.round ha h
  exact h'

/-- Rounds keep the property. -/
theorem rounds {n : Nat} (ha : run.arena = ofProgram p) (h : I run) : I (r.rounds n run).2 := by
  obtain ⟨-, h'⟩ := hI.upholds.rounds ha h
  exact h'

/-- The question about the unchanged program keeps the property, and the arena. -/
theorem check (ha : run.arena = ofProgram p) (h : I run) :
    I (r.check run).2 ∧ (r.check run).2.arena = ofProgram p := by
  obtain ⟨halt, run', he, ha', ⟨-, rfl⟩ | hc⟩ := r.check_cases ha
  · rw [he]
    exact ⟨h, ha'⟩
  · rw [he]
    exact ⟨hI.checked hc h, ha'⟩

/-- The search keeps the property. -/
theorem search (ha : run.arena = ofProgram p) (h : I run) : I (r.search run).2 := by
  obtain ⟨-, h'⟩ := hI.upholds.search ha (hI.check ha h).1
  exact h'

end Keeps

/-! ## The end -/

/-- The reduction of `p` stops in the state `run`, in which it has come to the program `q`. -/
structure Ended (r : Reducer σ) (p : Program) (s : σ) (q : Program) (reason : Termination)
    (run : Run σ) (outcome : ReductionOutcome) : Prop where
  search : r.search (initial p s) = (.stopped reason, run)
  padded : (ofProgram q).Padded run.arena
  finish : r.finish reason run = .ok outcome
  reduce : r.reduce (ofProgram p) s = (.ok outcome, run.oracle)
  arena : outcome.arena = ofProgram q
  termination : outcome.report.termination = reason
  commits : outcome.report.commits = run.commits

/-- Every reduction of a program stops with an outcome. -/
theorem exists_ended (r : Reducer σ) (p : Program) (s : σ) :
    ∃ q reason run outcome, r.Ended p s q reason run outcome := by
  have hI : r.Invariant fun _ _ => True := ⟨fun _ _ _ _ => trivial, fun _ _ _ => trivial⟩
  obtain ⟨q, reason, run, he, hpad, -⟩ :=
    search_spec hI (initial p s) rfl rfl (fun _ => trivial) fun _ _ => trivial
  obtain ⟨outcome, ho, harena, hreason, hcommits, -⟩ := r.finish_spec reason hpad
  refine ⟨q, reason, run, outcome, he, hpad, ho, ?_, harena, hreason, hcommits⟩
  rw [reduce, start_ofProgram, ← initial]
  simp only [he, ho]

/-- What is kept on the way holds in the state in which a reduction stops. -/
theorem Keeps.ended {I : Run σ → Prop} {reason : Termination} {outcome : ReductionOutcome}
    (hI : r.Keeps I) (h : I (initial p s)) (e : r.Ended p s q reason run outcome) : I run := by
  have hrun := hI.search rfl h
  rwa [e.search] at hrun

/-! ## Nothing goes wrong -/

/-- Nothing has gone wrong: every precondition held, every edit was accepted, and every candidate
could be read. -/
structure Clean (stats : ReductionStats) : Prop where
  preconditionMisses : stats.preconditionMisses = 0
  applyFailures : stats.applyFailures = 0
  rejectedUnserializable : stats.rejectedUnserializable = 0

/-- Counting a rejection is not counting a failure. -/
theorem Clean.countRejection {stats : ReductionStats} {verdict : Verdict} (h : Clean stats) :
    Clean (Reducer.countRejection verdict stats) := by
  cases verdict <;> exact ⟨h.1, h.2, h.3⟩

/-- Whatever a reduction does, nothing goes wrong. -/
theorem keeps_clean (r : Reducer σ) : r.Keeps fun run => Clean run.stats where
  ticked h := h
  scanned h := ⟨h.1, h.2, h.3⟩
  checked hc h := by
    cases hc with
    | spent => exact h
    | passed | failed => exact ⟨h.1, h.2, h.3⟩
  tried {_ q _ run _ _} ht h := by
    have hq : Clean (r.questioned run q).stats := ⟨h.1, h.2, h.3⟩
    cases ht with
    | spent => exact h
    | kept => exact hq
    | rejected => exact hq.countRejection

/-- The counts of a clean run are those of a clean report. -/
theorem stats_of_finish {reason : Termination} {outcome : ReductionOutcome}
    (h : r.finish reason run = .ok outcome) (hc : Clean run.stats) :
    Clean outcome.report.stats := by
  rw [finish] at h
  split at h
  · cases h
  · cases h
    cases reason <;> exact ⟨hc.1, hc.2, hc.3⟩

end

/-- A reduction of a program always gives an outcome, and nothing goes wrong on the way: no
precondition of a queued change fails when its turn comes, no change is refused, and every changed
program can be read. -/
theorem reduce_clean (r : Reducer σ) (p : Program) (s : σ) :
    ∃ outcome, (r.reduce (ofProgram p) s).1 = .ok outcome ∧
      outcome.report.stats.preconditionMisses = 0 ∧
      outcome.report.stats.applyFailures = 0 ∧
      outcome.report.stats.rejectedUnserializable = 0 := by
  obtain ⟨q, reason, run, outcome, e⟩ := r.exists_ended p s
  have hc := stats_of_finish e.finish (r.keeps_clean.ended ⟨rfl, rfl, rfl⟩ e)
  exact ⟨outcome, by rw [e.reduce], hc.1, hc.2, hc.3⟩

end Reducer

end ShaderShrink

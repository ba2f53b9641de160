import ShaderShrink.Proofs.Change.Lead
import ShaderShrink.Reduction.Run

/-!
# One try of a reduction

A reduction of a program `p` tries what was found in the arena of `p`, in an arena that is this one
with literals left behind. `Reducer.Tried` lists what a try can come to: the limit on questions is
reached, the change is kept and the arena becomes that of the smaller program, or the change is
undone. `Reducer.attempt_cases` says that nothing else happens: no precondition fails, no edit is
refused, and every candidate can be read and every edit undone.

`Tried` gives the whole state behind the try. `Reducer.Attempts` is what counts of it for the
search: the program, and the ledger.
-/

namespace ShaderShrink

open Arena

variable {σ : Type}

/-- What counts of a reduction that is under way: the state of the oracle, how often it was asked,
and what was kept. -/
structure Ledger (σ : Type) where
  oracle : σ
  calls : Nat
  commits : List CommitRecord

/-- The ledger of a reduction. -/
def Run.ledger (run : Run σ) : Ledger σ := ⟨run.oracle, run.stats.oracleCalls, run.commits⟩

namespace Reducer

/-- The text of a program as the job that is reduced. -/
def text (r : Reducer σ) (p : Program) : String :=
  ShaderJob.encode ⟨r.config.jobName, r.config.language, p⟩

/-- What the oracle says of a program. -/
def verdict (r : Reducer σ) (p : Program) (s : σ) : Verdict := (r.oracle (r.text p) s).1

/-- The state of the oracle after it was asked about a program. -/
def asked (r : Reducer σ) (p : Program) (s : σ) : σ := (r.oracle (r.text p) s).2

/-- The state after a question about a program. -/
def questioned (r : Reducer σ) (run : Run σ) (p : Program) : Run σ := (r.ask run (r.text p)).2

/-- The record of an opportunity that is kept, by the state before it. -/
def record (o : Opportunity) (run : Run σ) : CommitRecord where
  sequence := run.commits.length + 1
  kind := o.change.kind
  description := o.change.describe run.arena
  depth := o.depth
  nodesBefore := run.arena.liveCount
  nodesAfter := (o.change.apply run.arena).2.liveCount
  oracleCall := run.stats.oracleCalls + 1

/-- The state after a change that leads to the program `q` and is kept. -/
def kept (r : Reducer σ) (run : Run σ) (q : Program) (record : CommitRecord) : Run σ :=
  r.notePass { r.questioned run q with arena := ofProgram q, commits := run.commits ++ [record] }
    "candidate_committed"

/-- The state after a change that leads to the program `q` and is undone, which leaves `back`. -/
def turnedDown (r : Reducer σ) (run : Run σ) (q : Program) (back : Arena) : Run σ :=
  let verdict := r.verdict q run.oracle
  let stats := countRejection verdict (r.questioned run q).stats
  r.noteFail { r.questioned run q with arena := back, stats } "candidate_rejected" verdict.name

/-- What a try of an opportunity that leads from `p` to `q` can come to. -/
inductive Tried (r : Reducer σ) (p q : Program) (o : Opportunity) (run : Run σ) :
    Step → Run σ → Prop
  | spent : r.questionsSpent run = true →
    r.Tried p q o run (.halted (.stopped .oracleBudgetExhausted)) run
  | kept : r.questionsSpent run = false → r.verdict q run.oracle = .interesting →
    r.Tried p q o run .committed (r.kept run q (record o run))
  | rejected {back : Arena} :
    r.questionsSpent run = false → r.verdict q run.oracle ≠ .interesting →
    (ofProgram p).Padded back →
    r.Tried p q o run .next (r.turnedDown run q back)

/-- What a try of a change that leads from `p` to `q` can come to, by the ledger before it. -/
inductive Attempts (r : Reducer σ) (p q : Program) (t : Ledger σ) : Step → Run σ → Prop
  | spent {run : Run σ} :
    r.config.budget.maxOracleCalls ≠ none → (ofProgram p).Padded run.arena → run.ledger = t →
    r.Attempts p q t (.halted (.stopped .oracleBudgetExhausted)) run
  | kept {run : Run σ} {record : CommitRecord} :
    r.verdict q t.oracle = .interesting → run.arena = ofProgram q →
    record.oracleCall = t.calls + 1 →
    run.ledger = ⟨r.asked q t.oracle, t.calls + 1, t.commits ++ [record]⟩ →
    r.Attempts p q t .committed run
  | rejected {run : Run σ} :
    r.verdict q t.oracle ≠ .interesting → (ofProgram p).Padded run.arena →
    run.ledger = ⟨r.asked q t.oracle, t.calls + 1, t.commits⟩ →
    r.Attempts p q t .next run

section
variable {p q : Program}
variable (r : Reducer σ) (o : Opportunity) (run : Run σ)

/-- The text that is asked about is that of the program in the arena. -/
theorem currentText_eq (h : run.arena.toProgram = .ok q) : r.currentText run = .ok (r.text q) := by
  rw [currentText, h]
  rfl

/-- A change that was turned down has cost one question. -/
theorem calls_turnedDown (back : Arena) :
    (r.turnedDown run q back).stats.oracleCalls = run.stats.oracleCalls + 1 := by
  unfold turnedDown
  cases r.verdict q run.oracle <;> rfl

/-- A change that was turned down leaves the commits as they were. -/
theorem ledger_turnedDown (back : Arena) : (r.turnedDown run q back).ledger =
    ⟨r.asked q run.oracle, run.stats.oracleCalls + 1, run.commits⟩ := by
  rw [Run.ledger, calls_turnedDown]
  rfl

/-- A try of what was found in the program comes to one of three ends. -/
theorem attempt_cases (ho : o ∈ r.finder.find (ofProgram p)) (hq : p.change? o.change = some q)
    (ha : (ofProgram p).Padded run.arena) :
    ∃ step run', r.attempt o run = (step, run') ∧ r.Tried p q o run step run' := by
  obtain ⟨q', hq', -, hlead⟩ := FinderConfig.leads_of_mem_find ho
  rw [hq, Option.some_inj] at hq'
  subst hq'
  obtain ⟨edit, after, back, lead⟩ := hlead run.arena ha
  rw [attempt, lead.holds]
  cases hs : r.questionsSpent run with
  | true => exact ⟨_, _, rfl, .spent hs⟩
  | false =>
    have htext := r.currentText_eq { run with arena := after } lead.toProgram_eq
    have hask : r.ask { run with arena := after } (r.text q) =
        (r.verdict q run.oracle, { r.questioned run q with arena := after }) := rfl
    rw [lead.apply_eq]
    simp only [Bool.not_true, Bool.false_eq_true, if_false, judge, htext, hask]
    cases hv : r.verdict q run.oracle with
    | interesting =>
      refine ⟨_, _, ?_, .kept hs hv⟩
      simp only [commit, compact, lead.toProgram_eq, record, lead.apply_eq]
      rfl
    | notInteresting | invalid | executionError =>
      refine ⟨_, _, ?_, .rejected hs (by rw [hv]; nofun) lead.padded⟩
      simp only [reject, lead.revert_eq, turnedDown, hv]

/-- A try of what was found in the program comes to one of three ends, by the ledger. -/
theorem attempt_spec (ho : o ∈ r.finder.find (ofProgram p)) (hq : p.change? o.change = some q)
    (ha : (ofProgram p).Padded run.arena) :
    ∃ step run', r.attempt o run = (step, run') ∧ r.Attempts p q run.ledger step run' := by
  obtain ⟨step, run', he, h⟩ := r.attempt_cases o run ho hq ha
  refine ⟨step, run', he, ?_⟩
  cases h with
  | spent hs =>
    refine .spent (fun hn => ?_) ha rfl
    rw [questionsSpent, hn] at hs
    cases hs
  | kept _ hv => exact .kept hv rfl rfl rfl
  | rejected _ hv hb => exact .rejected hv hb (r.ledger_turnedDown run _)

end

end Reducer

end ShaderShrink

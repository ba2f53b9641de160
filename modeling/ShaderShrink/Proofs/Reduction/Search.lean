import ShaderShrink.Proofs.Reduction.Course

/-!
# Invariants of a reduction

A property of the program and the ledger that a reduction has come to is an invariant if both ends
of a try preserve it (`Reducer.Invariant`). `Reducer.reduce_spec` says that a reduction gives an
outcome, and that an invariant holds of it wherever the reduction got past the question about the
unchanged program; if it stopped at a fixpoint, the oracle has turned down every candidate.
-/

namespace ShaderShrink

open Arena

variable {σ : Type}

namespace Reducer

/-- Tries preserve the property. -/
structure Invariant (r : Reducer σ) (P : Program → Ledger σ → Prop) : Prop where
  kept {p q : Program} {t : Ledger σ} {record : CommitRecord} :
    P p t → q ∈ r.finder.candidates p → r.verdict q t.oracle = .interesting →
    record.oracleCall = t.calls + 1 →
    P q ⟨r.asked q t.oracle, t.calls + 1, t.commits ++ [record]⟩
  rejected {p q : Program} {t : Ledger σ} :
    P p t → q ∈ r.finder.candidates p → r.verdict q t.oracle ≠ .interesting →
    P p ⟨r.asked q t.oracle, t.calls + 1, t.commits⟩

/-- A search stops at the program `p` for a reason. It has come to a fixpoint only if the oracle
turned down the programs that were to be asked about. -/
structure Stops (r : Reducer σ) (P : Program → Ledger σ → Prop) (p : Program)
    (programs : List Program) (reason : Termination) (run : Run σ) : Prop where
  searched : reason ≠ .initialNotInteresting
  padded : (ofProgram p).Padded run.arena
  holds : P p run.ledger
  refused : reason = .fixpoint → ∀ q ∈ programs, ∃ s, r.verdict q s ≠ .interesting

/-- What trying some opportunities of the program `p` can come to. -/
inductive Tries (r : Reducer σ) (P : Program → Ledger σ → Prop) (p : Program)
    (programs : List Program) : Option Halt → Run σ → Prop
  | kept {q : Program} {run : Run σ} :
    q ∈ r.finder.candidates p → run.arena = ofProgram q → P q run.ledger →
    r.Tries P p programs none run
  | stopped {reason : Termination} {run : Run σ} :
    r.Stops P p programs reason run → r.Tries P p programs (some (.stopped reason)) run

/-- What comes of the question about the unchanged program `p`. -/
inductive Checked (r : Reducer σ) (p : Program) (run : Run σ) : Option Halt → Run σ → Prop
  | spent : r.questionsSpent run = true →
    r.Checked p run (some (.stopped .oracleBudgetExhausted)) run
  | passed : r.questionsSpent run = false → r.verdict p run.oracle = .interesting →
    r.Checked p run none (r.notePass (r.questioned run p) "initial_check")
  | failed : r.questionsSpent run = false → r.verdict p run.oracle ≠ .interesting →
    r.Checked p run (some (.stopped .initialNotInteresting))
      (r.noteFail (r.questioned run p) "initial_check" (r.verdict p run.oracle).name)

section
variable {r : Reducer σ} {P : Program → Ledger σ → Prop} {p q : Program} {run : Run σ}

/-- A search that stops before a fixpoint says nothing about the programs that are left. -/
theorem Stops.early {programs : List Program} {reason : Termination}
    (hi : reason ≠ .initialNotInteresting) (hf : reason ≠ .fixpoint)
    (ha : (ofProgram p).Padded run.arena) (hP : P p run.ledger) :
    r.Stops P p programs reason run :=
  ⟨hi, ha, hP, fun he => absurd he hf⟩

/-- A search comes to a fixpoint if no programs are left. -/
theorem Stops.exhausted (ha : (ofProgram p).Padded run.arena) (hP : P p run.ledger) :
    r.Stops P p [] .fixpoint run :=
  ⟨by decide, ha, hP, fun _ _ hq => absurd hq List.not_mem_nil⟩

/-- What was turned down before adds to what is turned down later. -/
theorem Tries.cons {programs : List Program} {halt : Option Halt} {s : σ}
    (h : r.Tries P p programs halt run) (hq : r.verdict q s ≠ .interesting) :
    r.Tries P p (q :: programs) halt run := by
  cases h with
  | kept hq' ha hP => exact .kept hq' ha hP
  | stopped h =>
    exact .stopped ⟨h.searched, h.padded, h.holds,
      fun he => List.forall_mem_cons.2 ⟨⟨s, hq⟩, h.refused he⟩⟩

/-- Reading the clock touches neither the arena nor the ledger. -/
theorem look_spec (r : Reducer σ) (run : Run σ) :
    ∃ up run', r.look run = (up, run') ∧ run'.arena = run.arena ∧ run'.ledger = run.ledger :=
  ⟨_, _, rfl, rfl, rfl⟩

/-- A look for opportunities touches neither the arena nor the ledger. It ends the search if there
is none, or if no further change may be kept. -/
theorem scan_spec (r : Reducer σ) (run : Run σ) :
    ∃ found run', r.scan run = (found, run') ∧ run'.arena = run.arena ∧ run'.ledger = run.ledger ∧
      (found = .error .fixpoint ∧ r.finder.find run.arena = [] ∨
        found = .error .commitBudgetExhausted ∧ r.config.budget.maxCommits ≠ none ∨
        found = .ok (r.finder.find run.arena)) := by
  unfold scan
  simp only
  split
  · next h => exact ⟨_, _, rfl, rfl, rfl, .inl ⟨rfl, List.isEmpty_iff.1 h⟩⟩
  · split
    · next h =>
      refine ⟨_, _, rfl, rfl, rfl, .inr (.inl ⟨rfl, fun hn => ?_⟩)⟩
      rw [commitsSpent, hn] at h
      cases h
    · exact ⟨_, _, rfl, rfl, rfl, .inr (.inr rfl)⟩

/-- A course of tries keeps an invariant. -/
theorem Course.tries (hI : r.Invariant P) {os : List Opportunity} {result : Option Halt × Run σ}
    (h : r.Course p os run result) (ha : (ofProgram p).Padded run.arena) (hP : P p run.ledger) :
    r.Tries P p (os.filterMap fun o => p.change? o.change) result.1 result.2 := by
  induction h with
  | late | spent => exact .stopped (.early (by decide) (by decide) ha hP)
  | exhausted => exact .stopped (.exhausted ha hP)
  | @kept o _ q _ _ ho hq ht =>
    have hcand : q ∈ r.finder.candidates p := List.mem_filterMap.2 ⟨o, ho, hq⟩
    cases ht with
    | kept _ hv => exact .kept hcand rfl (hI.kept hP hcand hv rfl)
  | @rejected o _ q run _ _ ho hq ht _ ih =>
    have hcand : q ∈ r.finder.candidates p := List.mem_filterMap.2 ⟨o, ho, hq⟩
    rw [List.filterMap_cons_some (f := fun o : Opportunity => p.change? o.change) hq]
    cases ht with
    | rejected _ hv hb =>
      refine (ih hb ?_).cons hv
      rw [r.ledger_turnedDown]
      exact hI.rejected hP hcand hv

/-- Trying opportunities of the program keeps an invariant. -/
theorem attemptAll_spec (hI : r.Invariant P) {os : List Opportunity}
    (hos : ∀ o ∈ os, o ∈ r.finder.find (ofProgram p)) (ha : (ofProgram p).Padded run.arena)
    (hP : P p run.ledger) :
    ∃ halt run', r.attemptAll os run = (halt, run') ∧
      r.Tries P p (os.filterMap fun o => p.change? o.change) halt run' :=
  ⟨_, _, rfl, (course_attemptAll hos ha).tries hI ha hP⟩

/-- Every round makes the program smaller, so a search with more rounds than the program has nodes
stops for a reason. -/
theorem rounds_spec (hI : r.Invariant P) {n : Nat} (hn : p.size < n)
    (ha : run.arena = ofProgram p) (hP : P p run.ledger) :
    ∃ q reason run', r.rounds n run = (.stopped reason, run') ∧
      r.Stops P q (r.finder.candidates q) reason run' := by
  induction n generalizing p run with
  | zero => cases hn
  | succ n ih =>
    obtain ⟨up, run', hlook, harena, hledger⟩ := r.look_spec run
    rw [rounds, hlook]
    rw [← harena] at ha
    rw [← hledger] at hP
    cases up with
    | true => exact ⟨_, _, _, rfl, .early (by decide) (by decide) (ha ▸ .refl) hP⟩
    | false =>
      obtain ⟨found, run₁, hscan, harena₁, hledger₁, h⟩ := r.scan_spec run'
      simp only [hscan]
      rw [ha] at harena₁ h
      rw [← hledger₁] at hP
      have hpad : (ofProgram p).Padded run₁.arena := harena₁ ▸ .refl
      rcases h with ⟨rfl, hf⟩ | ⟨rfl, -⟩ | rfl
      · refine ⟨p, _, _, rfl, ?_⟩
        rw [FinderConfig.candidates, hf]
        exact .exhausted hpad hP
      · exact ⟨_, _, _, rfl, .early (by decide) (by decide) hpad hP⟩
      · obtain ⟨halt, run₂, he, h⟩ := attemptAll_spec hI (fun _ => id) hpad hP
        simp only [he]
        cases h with
        | kept hq ha' hP' =>
          have hlt := FinderConfig.size_lt_of_mem_candidates hq
          exact ih (by omega) ha' hP'
        | stopped h => exact ⟨_, _, _, rfl, h⟩

/-- The question about the unchanged program is not asked because of the limit, or it is answered
well or not. -/
theorem askFirst_cases (ha : run.arena.toProgram = .ok p) :
    ∃ halt run', r.askFirst run = (halt, run') ∧ r.Checked p run halt run' := by
  have hask : r.ask run (r.text p) = (r.verdict p run.oracle, r.questioned run p) := rfl
  unfold askFirst
  cases hs : r.questionsSpent run with
  | true => exact ⟨_, _, rfl, .spent hs⟩
  | false =>
    rw [r.currentText_eq run ha]
    simp only [Bool.false_eq_true, if_false, hask]
    cases hv : r.verdict p run.oracle with
    | interesting => exact ⟨_, _, rfl, .passed hs hv⟩
    | notInteresting | invalid | executionError =>
      refine ⟨_, _, rfl, ?_⟩
      rw [← hv]
      exact .failed hs (by rw [hv]; nofun)

/-- The question about the unchanged program is not to be asked, or this comes of it. -/
theorem check_cases (r : Reducer σ) (ha : run.arena = ofProgram p) :
    ∃ halt run', r.check run = (halt, run') ∧ run'.arena = ofProgram p ∧
      (halt = none ∧ run' = run ∨ r.Checked p run halt run') := by
  have hp : run.arena.toProgram = .ok p := by rw [ha, toProgram_ofProgram]
  rw [check]
  split
  · obtain ⟨halt, run', he, h⟩ := askFirst_cases (r := r) hp
    refine ⟨halt, run', he, ?_, .inr h⟩
    cases h <;> exact ha
  · exact ⟨none, run, rfl, ha, .inl ⟨rfl, rfl⟩⟩

/-- What comes of the question about the unchanged program, by the ledger. -/
theorem askFirst_spec (ha : run.arena.toProgram = .ok p) :
    ∃ halt run', r.askFirst run = (halt, run') ∧ run'.arena = run.arena ∧
      (halt = some (.stopped .oracleBudgetExhausted) ∧ run'.ledger = run.ledger ∨
        run'.ledger = ⟨r.asked p run.ledger.oracle, run.ledger.calls + 1, run.ledger.commits⟩ ∧
          (halt = none ∧ r.verdict p run.ledger.oracle = .interesting ∨
            halt = some (.stopped .initialNotInteresting) ∧
              r.verdict p run.ledger.oracle ≠ .interesting)) := by
  obtain ⟨halt, run', he, h⟩ := askFirst_cases (r := r) ha
  refine ⟨halt, run', he, ?_⟩
  cases h with
  | spent => exact ⟨rfl, .inl ⟨rfl, rfl⟩⟩
  | passed _ hv => exact ⟨rfl, .inr ⟨rfl, .inl ⟨rfl, hv⟩⟩⟩
  | failed _ hv => exact ⟨rfl, .inr ⟨rfl, .inr ⟨rfl, hv⟩⟩⟩

/-- Literals that were left behind are dropped in the end. -/
theorem finish_spec (r : Reducer σ) (reason : Termination) (ha : (ofProgram q).Padded run.arena) :
    ∃ outcome, r.finish reason run = .ok outcome ∧ outcome.arena = ofProgram q ∧
      outcome.report.termination = reason ∧ outcome.report.commits = run.commits ∧
      outcome.report.stats.oracleCalls = run.stats.oracleCalls := by
  rw [finish, ha.toProgram_eq]
  refine ⟨_, rfl, rfl, rfl, ?_, rfl⟩
  cases reason <;> rfl

end

/-- How a reduction of the program `p` ends that starts with the oracle in the state `s`: with the
question about the unchanged program, or after a search. -/
inductive Ends (r : Reducer σ) (P : Program → Ledger σ → Prop) (p : Program) (s : σ) :
    Termination → Program → Ledger σ → Prop
  | unasked : r.config.checkInitial = true → r.Ends P p s .oracleBudgetExhausted p ⟨s, 0, []⟩
  | dull : r.config.checkInitial = true → r.verdict p s ≠ .interesting →
    r.Ends P p s .initialNotInteresting p ⟨r.asked p s, 1, []⟩
  | searched {reason : Termination} {q : Program} {t : Ledger σ} :
    reason ≠ .initialNotInteresting → P q t →
    (reason = .fixpoint → ∀ q' ∈ r.finder.candidates q, ∃ s, r.verdict q' s ≠ .interesting) →
    r.Ends P p s reason q t

section
variable {r : Reducer σ} {P : Program → Ledger σ → Prop} {p : Program} {s : σ}

/-- A search stops with a program that the invariant holds of, and with a reason that fits what was
kept. -/
theorem search_spec (hI : r.Invariant P) (run : Run σ) (ha : run.arena = ofProgram p)
    (ht : run.ledger = ⟨s, 0, []⟩) (hstart : r.config.checkInitial = false → P p ⟨s, 0, []⟩)
    (hchecked : r.config.checkInitial = true → r.verdict p s = .interesting →
      P p ⟨r.asked p s, 1, []⟩) :
    ∃ q reason run', r.search run = (.stopped reason, run') ∧
      (ofProgram q).Padded run'.arena ∧ r.Ends P p s reason q run'.ledger := by
  have hrounds {run : Run σ} (ha : run.arena = ofProgram p) (hP : P p run.ledger) :
      ∃ q reason run', r.rounds (run.arena.liveCount + 1) run = (.stopped reason, run') ∧
        (ofProgram q).Padded run'.arena ∧ r.Ends P p s reason q run'.ledger := by
    have hn : p.size < run.arena.liveCount + 1 := by
      rw [ha, liveCount_ofProgram]
      exact Nat.lt_succ_self _
    obtain ⟨q, reason, run', he, h⟩ := rounds_spec hI hn ha hP
    exact ⟨q, reason, run', he, h.padded, .searched h.searched h.holds h.refused⟩
  unfold search
  cases hc : r.config.checkInitial with
  | false => exact hrounds ha (ht ▸ hstart hc)
  | true =>
    have hp : run.arena.toProgram = .ok p := by rw [ha, toProgram_ofProgram]
    obtain ⟨halt, run', he, ha', h⟩ := askFirst_spec (r := r) hp
    simp only [if_true, he]
    rw [ha] at ha'
    rw [ht] at h
    rcases h with ⟨rfl, ht'⟩ | ⟨ht', ⟨rfl, hv⟩ | ⟨rfl, hv⟩⟩
    · exact ⟨p, _, run', rfl, ha' ▸ .refl, ht' ▸ .unasked hc⟩
    · exact hrounds ha' (ht' ▸ hchecked hc hv)
    · exact ⟨p, _, run', rfl, ha' ▸ .refl, ht' ▸ .dull hc hv⟩

/-- A reduction starts with the arena of its program. -/
theorem start_ofProgram (p : Program) (s : σ) : start (ofProgram p) s =
    .ok ⟨ofProgram p, s, [], .start (ofProgram p).liveCount p.digest, [], 0⟩ := by
  rw [start, digest, toProgram_ofProgram]
  rfl

/-- A reduction of a program gives an outcome. If it got past the question about the unchanged
program, an invariant holds of it. -/
theorem reduce_spec (hI : r.Invariant P)
    (hstart : r.config.checkInitial = false → P p ⟨s, 0, []⟩)
    (hchecked : r.config.checkInitial = true → r.verdict p s = .interesting →
      P p ⟨r.asked p s, 1, []⟩) :
    ∃ outcome q t, r.reduce (ofProgram p) s = (.ok outcome, t.oracle) ∧
      outcome.arena = ofProgram q ∧ outcome.report.commits = t.commits ∧
      outcome.report.stats.oracleCalls = t.calls ∧
      r.Ends P p s outcome.report.termination q t := by
  obtain ⟨q, reason, run, he, hpad, h⟩ := search_spec hI ⟨ofProgram p, s, [],
    .start (ofProgram p).liveCount p.digest, [], 0⟩ rfl rfl hstart hchecked
  obtain ⟨outcome, ho, harena, hreason, hcommits, hcalls⟩ := r.finish_spec reason hpad
  refine ⟨outcome, q, run.ledger, ?_, harena, hcommits, hcalls, hreason ▸ h⟩
  rw [reduce, start_ofProgram]
  simp only [he, ho]
  rfl

end

end Reducer

end ShaderShrink

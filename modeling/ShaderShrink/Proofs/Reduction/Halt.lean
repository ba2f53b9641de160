import ShaderShrink.Proofs.Reduction.Keeps

/-!
# Where a reduction stops

`Reducer.programAfter` is the program that a reduction has come to when it has kept a number of
changes. A reduction stops with the program that it has after the changes that it kept, these are no
more than the limit allows, and the limit that it names as its reason to stop is reached
(`Reducer.HaltsWith`, `Reducer.search_haltsWith`). The rounds of a search are counted for this by
`Reducer.HaltsAfter`.
-/

namespace ShaderShrink

open Arena

variable {σ : Type}

namespace Reducer

/-- The state after `k` rounds that each keep a change. -/
def roundsKept (r : Reducer σ) : Nat → Run σ → Option (Run σ)
  | 0, run => some run
  | k + 1, run =>
    match r.round run with
    | (none, run) => r.roundsKept k run
    | (some _, _) => none

/-- The program that a reduction of `p` has come to when it has kept a number of changes. -/
def programAfter (r : Reducer σ) : Nat → Program → σ → Option Program
  | 0, p, _ => some p
  | k + 1, p, s =>
    match r.check (initial p s) with
    | (none, run) => (r.roundsKept (k + 1) run).bind fun run => run.arena.toProgram.toOption
    | (some _, _) => none

section
variable {r : Reducer σ} {p q : Program}

/-! ## Limits that are reached -/

/-- All questions are spent when the limit is reached. -/
theorem questionsSpent_iff {run : Run σ} : r.questionsSpent run = true ↔
    ∃ limit, r.config.budget.maxOracleCalls = some limit ∧ limit.toNat ≤ run.stats.oracleCalls := by
  simp [questionsSpent, Option.any_eq_true]

/-- All commits are spent when the limit is reached. -/
theorem commitsSpent_iff {run : Run σ} : r.commitsSpent run = true ↔
    ∃ limit, r.config.budget.maxCommits = some limit ∧ limit.toNat ≤ run.commits.length := by
  simp [commitsSpent, Option.any_eq_true]

/-! ## Rounds -/

/-- The rounds from the state `run` on stop in the state `last` after `k` kept changes, with the
program `q`. -/
structure HaltsAfter (r : Reducer σ) (run : Run σ) (k : Nat) (q : Program) (reason : Termination)
    (last : Run σ) : Prop where
  padded : (ofProgram q).Padded last.arena
  reached : r.Reached q last reason
  commits : last.commits.length = run.commits.length + k
  kept : ∃ run', r.roundsKept k run = some run' ∧ run'.arena = ofProgram q
  le {limit : UInt64} : r.config.budget.maxCommits = some limit →
    run.commits.length ≤ limit.toNat → last.commits.length ≤ limit.toNat

/-- A round that kept a change found the limit not reached. -/
theorem commitsSpent_of_round {run run' : Run σ} (h : r.round run = (none, run')) :
    r.commitsSpent run = false := by
  unfold round at h
  split at h
  · cases h
  · split at h
    · cases h
    · split at h
      · cases h
      · next hs => exact Bool.eq_false_iff.2 hs

/-- The rounds halt after some kept changes. -/
theorem rounds_haltsAfter {n : Nat} {run : Run σ} (ha : run.arena = ofProgram p) :
    ∃ k q reason last, r.rounds n run = (.stopped reason, last) ∧
      r.HaltsAfter run k q reason last := by
  induction n generalizing p run with
  | zero =>
    refine ⟨0, p, .fixpoint, run, rfl, ?_⟩
    exact ⟨ha ▸ .refl, trivial, rfl, ⟨run, rfl, ha⟩, fun _ hle => hle⟩
  | succ n ih =>
    have hr := rounded_round (r := r) ha
    rw [rounds_succ]
    rcases he : r.round run with ⟨halt, run'⟩
    rw [he] at hr
    cases hr with
    | stopped hpad hc hreached =>
      refine ⟨0, p, _, run', rfl, hpad, hreached, by rw [hc]; rfl, ⟨run, rfl, ha⟩, ?_⟩
      intro limit _ hle
      rwa [hc]
    | @kept q record _ _ ha' hc =>
      obtain ⟨k, q', reason, last, hlast, h⟩ := ih ha'
      have hlen : run'.commits.length = run.commits.length + 1 := by
        rw [hc, List.length_append]
        rfl
      refine ⟨k + 1, q', reason, last, hlast, h.padded, h.reached, ?_, ?_, ?_⟩
      · rw [h.commits, hlen]
        omega
      · rw [roundsKept, he]
        exact h.kept
      · intro limit hl _
        refine h.le hl ?_
        rw [hlen]
        refine Nat.lt_of_not_le fun hle => ?_
        have hspent := commitsSpent_iff.2 ⟨limit, hl, hle⟩
        rw [commitsSpent_of_round he] at hspent
        cases hspent

/-! ## The search -/

/-- The state in which a reduction of `p` stops, with the program `q`: it is the program that the
reduction has come to with the changes that it kept, and these are within the limit. -/
structure HaltsWith (r : Reducer σ) (p : Program) (s : σ) (q : Program) (reason : Termination)
    (last : Run σ) : Prop where
  padded : (ofProgram q).Padded last.arena
  reached : r.Reached q last reason
  program : r.programAfter last.commits.length p s = some q
  le {limit : UInt64} : r.config.budget.maxCommits = some limit →
    last.commits.length ≤ limit.toNat

/-- Rounds that halt behind the first question make the reduction halt. -/
theorem HaltsAfter.haltsWith {s : σ} {run last : Run σ} {k : Nat} {reason : Termination}
    (h : r.HaltsAfter run k q reason last) (hc : r.check (initial p s) = (none, run))
    (ha : run.arena = ofProgram p) (hn : run.commits = []) : r.HaltsWith p s q reason last where
  padded := h.padded
  reached := h.reached
  program := by
    obtain ⟨run', hk, ha'⟩ := h.kept
    rw [h.commits, hn, List.length_nil, Nat.zero_add]
    cases k with
    | zero =>
      cases hk
      have hread := congrArg Arena.toProgram (ha.symm.trans ha')
      rw [toProgram_ofProgram, toProgram_ofProgram] at hread
      cases hread
      rfl
    | succ k =>
      rw [programAfter, hc]
      refine Option.bind_eq_some_iff.2 ⟨run', hk, ?_⟩
      rw [ha', toProgram_ofProgram]
      rfl
  le hl := h.le hl (by rw [hn]; exact Nat.zero_le _)

/-- Every reduction of a program stops like that. -/
theorem search_haltsWith (r : Reducer σ) (p : Program) (s : σ) :
    ∃ q reason last, r.search (initial p s) = (.stopped reason, last) ∧
      r.HaltsWith p s q reason last := by
  have rounds {run : Run σ} (hc : r.check (initial p s) = (none, run))
      (ha : run.arena = ofProgram p) (hn : run.commits = []) :
      ∃ q reason last, r.search (initial p s) = (.stopped reason, last) ∧
        r.HaltsWith p s q reason last := by
    obtain ⟨k, q, reason, last, he, h⟩ := rounds_haltsAfter (r := r) ha
    exact ⟨q, reason, last, by rw [search_eq, hc]; exact he, h.haltsWith hc ha hn⟩
  cases hc : r.config.checkInitial with
  | false =>
    have hcheck : r.check (initial p s) = (none, initial p s) := by rw [check, hc]; rfl
    exact rounds hcheck rfl rfl
  | true =>
    have hread : (initial p s).arena.toProgram = .ok p := toProgram_ofProgram p
    obtain ⟨halt, run, he, h⟩ := askFirst_cases (r := r) hread
    have hcheck : r.check (initial p s) = (halt, run) := by rw [check, hc]; exact he
    have hsearch : r.search (initial p s) = andThen (halt, run) _ := hcheck ▸ search_eq
    cases h with
    | spent hs => exact ⟨p, _, _, hsearch, .refl, hs, rfl, fun _ => Nat.zero_le _⟩
    | passed => exact rounds hcheck rfl rfl
    | failed => exact ⟨p, _, _, hsearch, .refl, trivial, rfl, fun _ => Nat.zero_le _⟩

/-- A reduction that has ended has halted. -/
theorem Ended.haltsWith {s : σ} {reason : Termination} {run : Run σ} {outcome : ReductionOutcome}
    (e : r.Ended p s q reason run outcome) : r.HaltsWith p s q reason run := by
  obtain ⟨q', reason', last, he, h⟩ := r.search_haltsWith p s
  rw [e.search] at he
  cases he
  -- both say which program is read from the last arena
  have hread := h.padded.toProgram_eq.symm.trans e.padded.toProgram_eq
  cases hread
  exact h

end

end Reducer

end ShaderShrink

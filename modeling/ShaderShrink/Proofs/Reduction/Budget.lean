import ShaderShrink.Proofs.Reduction.Halt
import ShaderShrink.Proofs.Reduction.Transcript

/-!
# Limits of reductions

A limit cuts a reduction short and does nothing else. `Reducer.unlimited` is the same reducer
without limits. The two go through the same states, event by event, until a limit is reached
(`Reducer.search_cut`); from there on the reducer without limits only adds calls and changes
(`Run.Precedes`). `Reducer.reduce_cutShort` says what this means for the outcomes: what was asked
and what was kept is an initial part, the program is the one that the reduction without limits has
after that many changes, and a reduction that names a limit as its reason to stop has used it up.
-/

namespace ShaderShrink

open Arena

variable {σ : Type}

/-- The calls and the kept changes of the first state are the first ones of the second state. -/
structure Run.Precedes (run run' : Run (σ × List Call)) : Prop where
  calls : run.oracle.2 <+: run'.oracle.2
  commits : run.commits <+: run'.commits

/-- A state precedes itself. -/
theorem Run.Precedes.refl (run : Run (σ × List Call)) : run.Precedes run :=
  ⟨List.prefix_rfl, List.prefix_rfl⟩

namespace Reducer

/-- The reducer without limits. -/
def unlimited (r : Reducer σ) : Reducer σ :=
  { r with config := { r.config with budget := .unlimited } }

/-- The result `x` with limits is the result `y` without limits, or a limit was reached on the
way. -/
inductive Cuts {α : Type} (stop : Termination → α) (x y : α × Run (σ × List Call)) : Prop
  | same : x = y → Cuts stop x y
  | cut {reason : Termination} {run : Run (σ × List Call)} :
    x = (stop reason, run) → reason.isBestEffort = true → run.Precedes y.2 → Cuts stop x y

section
variable {r : Reducer σ} {p q : Program} {o : Opportunity} {os : List Opportunity}

/-! ## Going the same way -/

/-- Whatever a reduction does adds to the calls and to the kept changes. -/
theorem keeps_precedes (r : Reducer σ) (first : Run (σ × List Call)) :
    r.logged.Keeps first.Precedes where
  ticked h := ⟨h.calls, h.commits⟩
  scanned h := ⟨h.calls, h.commits⟩
  checked hc h := by
    cases hc with
    | spent => exact h
    | passed | failed => exact ⟨h.calls.trans (List.prefix_append ..), h.commits⟩
  tried ht h := by
    cases ht with
    | spent => exact h
    | kept => exact ⟨h.calls.trans (List.prefix_append ..),
        h.commits.trans (List.prefix_append ..)⟩
    | rejected => exact ⟨h.calls.trans (List.prefix_append ..), h.commits⟩

/-- With limits an opportunity is tried as without them, unless all questions are spent. -/
theorem attempt_cut (r : Reducer σ) (o : Opportunity) (run : Run σ) :
    r.attempt o run = (.halted (.stopped .oracleBudgetExhausted), run) ∨
      r.attempt o run = r.unlimited.attempt o run := by
  have hs : r.unlimited.questionsSpent run = false := rfl
  unfold attempt
  rw [hs]
  cases o.change.holds run.arena with
  | false => exact .inr rfl
  | true =>
    cases r.questionsSpent run with
    | true => exact .inl rfl
    | false => exact .inr rfl

/-- With limits opportunities are tried as without them up to where a limit is reached. -/
theorem attemptAll_cut {run : Run (σ × List Call)}
    (hos : ∀ o ∈ os, o ∈ r.finder.find (ofProgram p)) (ha : (ofProgram p).Padded run.arena) :
    Cuts (fun reason => some (.stopped reason)) (r.logged.attemptAll os run)
      (r.unlimited.logged.attemptAll os run) := by
  induction os generalizing run with
  | nil =>
    rw [attemptAll_nil, attemptAll_nil]
    cases r.logged.timeUp run with
    | true => exact .cut rfl rfl (.refl _)
    | false => exact .same rfl
  | cons o rest ih =>
    obtain ⟨ho, hrest⟩ := List.forall_mem_cons.1 hos
    obtain ⟨q, hq, -⟩ := FinderConfig.leads_of_mem_find ho
    -- wherever the limits stop the one reduction, the other goes on from there and only adds
    have hall := (r.unlimited.keeps_precedes run).course (course_attemptAll hos ha) (.refl run)
    have hup : r.unlimited.logged.timeUp run = false := rfl
    rw [attemptAll_cons, hup] at hall
    rw [attemptAll_cons, attemptAll_cons, hup]
    cases r.logged.timeUp run with
    | true => exact .cut rfl rfl ⟨hall.calls, hall.commits⟩
    | false =>
      simp only [Bool.false_eq_true, if_false] at hall ⊢
      rcases r.logged.attempt_cut o run.ticked with he | he
      · rw [he]
        exact .cut rfl rfl ⟨hall.calls, hall.commits⟩
      · obtain ⟨step, run', he', htried⟩ :=
          r.logged.unlimited.attempt_cases o run.ticked ho hq ha
        have hsame : r.unlimited.logged.attempt o run.ticked = (step, run') := he'
        rw [he, he', hsame]
        cases htried with
        | spent => exact .same rfl
        | kept => exact .same rfl
        | rejected _ _ hb => exact ih hrest hb

/-- With limits a round goes as without them up to where a limit is reached. -/
theorem round_cut {run : Run (σ × List Call)} (ha : run.arena = ofProgram p) :
    Cuts (fun reason => some (.stopped reason)) (r.logged.round run)
      (r.unlimited.logged.round run) := by
  have hpad : (ofProgram p).Padded run.ticked.scanned.arena := ha ▸ .refl
  have hround := (r.unlimited.keeps_precedes run).round ha (.refl run)
  have hup : r.unlimited.logged.timeUp run = false := rfl
  have hspent : r.unlimited.logged.commitsSpent run = false := rfl
  have hfinder : r.unlimited.logged.finder = r.logged.finder := rfl
  unfold round at hround ⊢
  rw [hup, hspent, hfinder] at hround ⊢
  simp only [Bool.false_eq_true, if_false] at hround ⊢
  cases r.logged.timeUp run with
  | true => exact .cut rfl rfl ⟨hround.calls, hround.commits⟩
  | false =>
    simp only [Bool.false_eq_true, if_false]
    by_cases hf : r.logged.finder.find run.arena = []
    · rw [if_pos hf, if_pos hf]
      exact .same rfl
    · rw [if_neg hf, if_neg hf]
      rw [if_neg hf] at hround
      cases r.logged.commitsSpent run with
      | true => exact .cut rfl rfl ⟨hround.calls, hround.commits⟩
      | false =>
        rw [ha]
        exact attemptAll_cut (fun _ => id) hpad

/-- Two results that go together still do when both go on. -/
theorem Cuts.andThen {x y : Option Halt × Run (σ × List Call)}
    {f g : Run (σ × List Call) → Halt × Run (σ × List Call)}
    (h : Cuts (fun reason => some (.stopped reason)) x y)
    (hf : ∀ run, y = (none, run) → Cuts .stopped (f run) (g run))
    (hg : ∀ (first : Run (σ × List Call)) run, y = (none, run) → first.Precedes run →
      first.Precedes (g run).2) :
    Cuts .stopped (Reducer.andThen x f) (Reducer.andThen y g) := by
  cases h with
  | same h =>
    rw [h]
    rcases hy : y with ⟨_ | halt, run⟩
    · exact hf run hy
    · exact .same rfl
  | @cut reason first hx hb hp =>
    rw [hx]
    refine .cut rfl hb ?_
    rcases hy : y with ⟨_ | halt, run⟩
    all_goals rw [hy] at hp
    · exact hg first run hy hp
    · exact hp

/-- With limits the rounds go as without them up to where a limit is reached. -/
theorem rounds_cut {n : Nat} {run : Run (σ × List Call)} (ha : run.arena = ofProgram p) :
    Cuts .stopped (r.logged.rounds n run) (r.unlimited.logged.rounds n run) := by
  induction n generalizing p run with
  | zero => exact .same rfl
  | succ n ih =>
    rw [rounds_succ, rounds_succ]
    refine (round_cut ha).andThen ?_ ?_
    · intro run' he
      obtain ⟨q, ha'⟩ := arena_of_round ha he
      exact ih ha'
    · intro first run' he hp
      obtain ⟨q, ha'⟩ := arena_of_round ha he
      exact (r.unlimited.keeps_precedes first).rounds ha' hp

/-- With limits the question about the unchanged program goes as without them, unless a limit is
reached there. -/
theorem check_cut (r : Reducer σ) (run : Run (σ × List Call)) (ha : run.arena = ofProgram p) :
    Cuts (fun reason => some (.stopped reason)) (r.logged.check run)
      (r.unlimited.logged.check run) := by
  have hcheck := ((r.unlimited.keeps_precedes run).check ha (.refl run)).1
  have hinitial : r.unlimited.logged.config.checkInitial = r.logged.config.checkInitial := rfl
  have hspent : r.unlimited.logged.questionsSpent run = false := rfl
  unfold check at hcheck ⊢
  rw [hinitial] at hcheck ⊢
  cases hc : r.logged.config.checkInitial with
  | false => exact .same rfl
  | true =>
    rw [hc] at hcheck
    simp only [if_true] at hcheck ⊢
    cases hs : r.logged.questionsSpent run with
    | true =>
      have he : r.logged.askFirst run = (some (.stopped .oracleBudgetExhausted), run) := by
        rw [askFirst, hs]
        rfl
      exact .cut he rfl hcheck
    | false =>
      refine .same ?_
      rw [askFirst, askFirst, hs, hspent]
      rfl

/-- A reduction with limits goes the way of the one without limits, until a limit is reached. -/
theorem search_cut (r : Reducer σ) (run : Run (σ × List Call)) (ha : run.arena = ofProgram p) :
    Cuts .stopped (r.logged.search run) (r.unlimited.logged.search run) := by
  have harena {run' : Run (σ × List Call)} (he : r.unlimited.logged.check run = (none, run')) :
      run'.arena = ofProgram p := by
    have hc := (r.unlimited.keeps_precedes run).check ha (.refl run)
    rw [he] at hc
    exact hc.2
  rw [search_eq, search_eq]
  refine (r.check_cut run ha).andThen ?_ ?_
  · intro run' he
    exact rounds_cut (harena he)
  · intro first run' he hp
    exact (r.unlimited.keeps_precedes first).rounds (harena he) hp

/-! ## The program after some kept changes -/

/-- Rounds that each keep a change go as without limits. -/
theorem roundsKept_unlimited {k : Nat} {run run' : Run (σ × List Call)}
    (ha : run.arena = ofProgram p) (h : r.logged.roundsKept k run = some run') :
    r.unlimited.logged.roundsKept k run = some run' := by
  induction k generalizing p run with
  | zero => exact h
  | succ k ih =>
    rw [roundsKept] at h ⊢
    rcases he : r.logged.round run with ⟨_ | halt, run₁⟩
    · rw [he] at h
      obtain ⟨q, ha'⟩ := arena_of_round ha he
      cases round_cut (r := r) ha with
      | same hs =>
        rw [← hs, he]
        exact ih ha' h
      | cut hs => cases he.symm.trans hs
    · rw [he] at h
      cases h

/-- What a reduction with limits has come to after some kept changes, the one without limits has
come to as well. -/
theorem programAfter_unlimited {k : Nat} {s : σ × List Call}
    (h : r.logged.programAfter k p s = some q) :
    r.unlimited.logged.programAfter k p s = some q := by
  cases k with
  | zero => exact h
  | succ k =>
    have hc := (r.keeps_precedes (initial p s)).check rfl (.refl _)
    rw [programAfter] at h ⊢
    rcases he : r.logged.check (initial p s) with ⟨_ | halt, run⟩
    all_goals rw [he] at h hc
    · cases r.check_cut (initial p s) rfl with
      | same hs =>
        rw [← hs, he]
        obtain ⟨run', hk, hq⟩ := Option.bind_eq_some_iff.1 h
        exact Option.bind_eq_some_iff.2 ⟨run', roundsKept_unlimited hc.2 hk, hq⟩
      | cut hs => cases he.symm.trans hs
    · cases h

/-- Writing calls down changes nothing about the first question. -/
theorem check_logged (run : Run (σ × List Call)) :
    r.check run.forget = Run.forgetIn (r.logged.check run) := by
  have hinitial : r.logged.config.checkInitial = r.config.checkInitial := rfl
  rw [check, check, hinitial]
  split
  · exact r.askFirst_logged run
  · rfl

/-- Writing calls down changes nothing about a round. -/
theorem round_logged (run : Run (σ × List Call)) :
    r.round run.forget = Run.forgetIn (r.logged.round run) := by
  have htime : r.timeUp run.forget = r.logged.timeUp run := rfl
  have hspent : r.commitsSpent run.forget = r.logged.commitsSpent run := rfl
  have hfind : r.finder.find run.forget.arena = r.logged.finder.find run.arena := rfl
  rw [round, round, htime, hspent, hfind]
  split
  · rfl
  · split
    · rfl
    · split
      · rfl
      · exact r.attemptAll_logged run.ticked.scanned _

/-- Writing calls down changes nothing about the rounds that keep changes. -/
theorem roundsKept_logged {k : Nat} {run : Run (σ × List Call)} :
    r.roundsKept k run.forget = (r.logged.roundsKept k run).map Run.forget := by
  induction k generalizing run with
  | zero => rfl
  | succ k ih =>
    rw [roundsKept, roundsKept, round_logged]
    rcases r.logged.round run with ⟨_ | halt, run'⟩
    · exact ih
    · rfl

/-- Writing calls down changes no program that a reduction comes to. -/
theorem programAfter_logged {k : Nat} {s : σ} (calls : List Call) :
    r.programAfter k p s = r.logged.programAfter k p (s, calls) := by
  cases k with
  | zero => rfl
  | succ k =>
    have hforget : (initial p (s, calls)).forget = initial p s := rfl
    rw [programAfter, programAfter, ← hforget, check_logged]
    rcases r.logged.check (initial p (s, calls)) with ⟨_ | halt, run⟩
    · simp only [Run.forgetIn_mk, roundsKept_logged]
      cases r.logged.roundsKept (k + 1) run <;> rfl
    · rfl

/-! ## Calls within the limit -/

/-- The calls are counted, and they are no more than the limit allows. -/
structure CallsWithin (r : Reducer σ) (run : Run (σ × List Call)) : Prop where
  counted : run.stats.oracleCalls = run.oracle.2.length
  le {limit : UInt64} : r.config.budget.maxOracleCalls = some limit →
    run.stats.oracleCalls ≤ limit.toNat

/-- One more call is within the limit if the limit was not reached. -/
theorem CallsWithin.questioned {run : Run (σ × List Call)} (h : r.CallsWithin run)
    (hs : r.logged.questionsSpent run = false) (q : Program) :
    r.CallsWithin (r.logged.questioned run q) where
  counted := by
    have hlog : (r.logged.questioned run q).oracle.2 =
        run.oracle.2 ++ [⟨r.text q, r.logged.verdict q run.oracle⟩] := rfl
    rw [hlog, List.length_append, ← h.counted]
    rfl
  le {limit} hl := by
    refine Nat.lt_of_not_le fun hle => ?_
    have hspent : r.logged.questionsSpent run = true := questionsSpent_iff.2 ⟨limit, hl, hle⟩
    rw [hs] at hspent
    cases hspent

/-- All along, the calls are counted and within the limit. -/
theorem keeps_callsWithin (r : Reducer σ) : r.logged.Keeps r.CallsWithin where
  ticked h := ⟨h.counted, h.le⟩
  scanned h := ⟨h.counted, h.le⟩
  checked {p run _ _} hc h := by
    cases hc with
    | spent => exact h
    | passed hs | failed hs =>
      have hq := h.questioned hs p
      exact ⟨hq.counted, hq.le⟩
  tried {_ q _ run _ _} ht h := by
    cases ht with
    | spent => exact h
    | kept hs =>
      have hq := h.questioned hs q
      exact ⟨hq.counted, hq.le⟩
    | rejected hs =>
      have hq := h.questioned hs q
      constructor
      · rw [calls_turnedDown]
        exact hq.counted
      · intro limit hl
        rw [calls_turnedDown]
        exact hq.le hl

/-! ## The outcomes -/

/-- The reduction with limits has the outcome `cut`, and the one without limits has the outcome
`whole`. -/
structure CutShort (r : Reducer σ) (p : Program) (s : σ) (cut whole : ReductionOutcome) :
    Prop where
  calls : r.transcript (ofProgram p) s <+: r.unlimited.transcript (ofProgram p) s
  commits : cut.report.commits <+: whole.report.commits
  calls_le {limit : UInt64} : r.config.budget.maxOracleCalls = some limit →
    (r.transcript (ofProgram p) s).length ≤ limit.toNat
  commits_le {limit : UInt64} : r.config.budget.maxCommits = some limit →
    cut.report.commits.length ≤ limit.toNat
  /-- The program is the one that the reduction without limits has after as many changes. -/
  program : ∃ q, cut.arena.toProgram = .ok q ∧
    r.unlimited.programAfter cut.report.commits.length p s = some q
  calls_eq : cut.report.termination = .oracleBudgetExhausted →
    ∃ limit, r.config.budget.maxOracleCalls = some limit ∧
      (r.transcript (ofProgram p) s).length = limit.toNat
  commits_eq : cut.report.termination = .commitBudgetExhausted →
    ∃ limit, r.config.budget.maxCommits = some limit ∧
      cut.report.commits.length = limit.toNat ∧ r.finder.find cut.arena ≠ []
  /-- A reduction that was not stopped by a limit went as it does without limits. -/
  uncut : cut.report.termination = .fixpoint ∨ cut.report.termination = .initialNotInteresting →
    r.reduce (ofProgram p) s = r.unlimited.reduce (ofProgram p) s

/-- A reduction that writes its calls down has the outcome of one that does not. -/
theorem Ended.reduce_eq {s : σ} {calls : List Call} {reason : Termination}
    {run : Run (σ × List Call)} {outcome : ReductionOutcome}
    (e : r.logged.Ended p (s, calls) q reason run outcome) :
    r.reduce (ofProgram p) s = (.ok outcome, run.oracle.1) := by
  rw [r.reduce_logged (ofProgram p) s calls, e.reduce]

/-- The transcript of a reduction is what was written down. -/
theorem Ended.transcript_eq {s : σ} {reason : Termination} {run : Run (σ × List Call)}
    {outcome : ReductionOutcome} (e : r.logged.Ended p (s, []) q reason run outcome) :
    r.transcript (ofProgram p) s = run.oracle.2 := by
  rw [transcript, e.reduce]

/-- A reduction that is not stopped by a limit goes as it does without limits. -/
theorem Ended.eq_unlimited {s : σ} {q' : Program} {reason reason' : Termination}
    {run run' : Run (σ × List Call)} {cut whole : ReductionOutcome}
    (e : r.logged.Ended p (s, []) q reason run cut)
    (e' : r.unlimited.logged.Ended p (s, []) q' reason' run' whole)
    (hb : reason.isBestEffort = false) :
    r.reduce (ofProgram p) s = r.unlimited.reduce (ofProgram p) s := by
  have hsearch : r.logged.search (initial p (s, [])) =
      r.unlimited.logged.search (initial p (s, [])) := by
    cases r.search_cut (initial p (s, [])) rfl with
    | same hs => exact hs
    | cut hs hb' =>
      rw [e.search] at hs
      cases hs
      rw [hb] at hb'
      cases hb'
  rw [e.search, e'.search] at hsearch
  cases hsearch
  have hfinish := e'.finish
  have hsame : r.unlimited.logged.finish reason run = r.logged.finish reason run := rfl
  rw [hsame, e.finish] at hfinish
  cases hfinish
  rw [e.reduce_eq, e'.reduce_eq]

/-- Limits only cut a reduction short. -/
theorem reduce_cutShort (r : Reducer σ) (p : Program) (s : σ) :
    ∃ cut whole, (r.reduce (ofProgram p) s).1 = .ok cut ∧
      (r.unlimited.reduce (ofProgram p) s).1 = .ok whole ∧ r.CutShort p s cut whole := by
  obtain ⟨q', reason', run', whole, e'⟩ := r.unlimited.logged.exists_ended p (s, [])
  obtain ⟨q, reason, run, cut, e⟩ := r.logged.exists_ended p (s, [])
  have hprec : run.Precedes run' := by
    cases r.search_cut (initial p (s, [])) rfl with
    | same hs =>
      rw [e.search, e'.search] at hs
      cases hs
      exact .refl _
    | cut hs _ hp =>
      rw [e.search] at hs
      cases hs
      rwa [e'.search] at hp
  have hcalls := r.keeps_callsWithin.ended ⟨rfl, fun _ => Nat.zero_le _⟩ e
  have h := e.haltsWith
  refine ⟨cut, whole, by rw [e.reduce_eq], by rw [e'.reduce_eq], ?_⟩
  exact {
    calls := by
      rw [e.transcript_eq, e'.transcript_eq]
      exact hprec.calls
    commits := by
      rw [e.commits, e'.commits]
      exact hprec.commits
    calls_le := by
      intro limit hl
      rw [e.transcript_eq, ← hcalls.counted]
      exact hcalls.le hl
    commits_le := by
      intro limit hl
      rw [e.commits]
      exact h.le hl
    program := by
      refine ⟨q, by rw [e.arena, toProgram_ofProgram], ?_⟩
      rw [e.commits, programAfter_logged []]
      exact programAfter_unlimited h.program
    calls_eq := by
      intro ht
      have hreached := h.reached
      rw [e.termination.symm.trans ht] at hreached
      obtain ⟨limit, hl, hle⟩ := questionsSpent_iff.1 hreached
      refine ⟨limit, hl, ?_⟩
      rw [e.transcript_eq, ← hcalls.counted]
      exact Nat.le_antisymm (hcalls.le hl) hle
    commits_eq := by
      intro ht
      have hreached := h.reached
      rw [e.termination.symm.trans ht] at hreached
      obtain ⟨hspent, hfind⟩ := hreached
      obtain ⟨limit, hl, hle⟩ := commitsSpent_iff.1 hspent
      refine ⟨limit, hl, ?_, by rwa [e.arena]⟩
      rw [e.commits]
      exact Nat.le_antisymm (h.le hl) hle
    uncut := by
      rw [e.termination]
      rintro (rfl | rfl)
      · exact e.eq_unlimited e' rfl
      · exact e.eq_unlimited e' rfl }

end

end Reducer

end ShaderShrink

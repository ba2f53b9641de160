import ShaderShrink.Proofs.Reduction.Search
import ShaderShrink.Proofs.Reduction.Transcript

/-!
# Reductions are greedy searches

`Reducer.greedy` keeps a program and nothing else of what a reduction keeps: no arena that
candidates share, no edits to undo, no limits. It makes every change of the program in an arena of
its own, asks about the programs that this gives in their order, and starts over with the first
interesting one. `Reducer.reduce_eq_greedy` says that a reduction without limits asks the same
questions, gets the same answers and ends with the same program.
-/

namespace ShaderShrink

open Arena

variable {σ : Type}

namespace Reducer

/-- Asks about some programs in their order up to the first interesting one. The second component is
the state that the oracle is left in. -/
def firstInteresting (r : Reducer σ) : List Program → σ → Option Program × σ
  | [], s => (none, s)
  | q :: rest, s =>
    if r.verdict q s = .interesting then (some q, r.asked q s)
    else r.firstInteresting rest (r.asked q s)

/-- The first interesting program is one of those that were asked about. -/
theorem mem_of_firstInteresting {r : Reducer σ} {programs : List Program} {q : Program} {s s' : σ}
    (h : r.firstInteresting programs s = (some q, s')) : q ∈ programs := by
  induction programs generalizing s with
  | nil => cases h
  | cons p rest ih =>
    rw [firstInteresting] at h
    split at h
    · cases h
      exact List.mem_cons_self
    · exact List.mem_cons_of_mem _ (ih h)

/-- The greedy search: the first interesting candidate becomes the program, until there is none. The
second component is the state that the oracle is left in. -/
def greedy (r : Reducer σ) (p : Program) (s : σ) : Program × σ :=
  match h : r.firstInteresting (r.finder.candidates p) s with
  | (none, s') => (p, s')
  | (some q, s') =>
    have : q.size < p.size :=
      FinderConfig.size_lt_of_mem_candidates (mem_of_firstInteresting h)
    r.greedy q s'
termination_by p.size

/-- The calls of the oracle in the greedy search. -/
def greedyTranscript (r : Reducer σ) (p : Program) (s : σ) : List Call :=
  (r.logged.greedy p (s, [])).2.2

section
variable {r : Reducer σ} {p q : Program} {s s' : σ} {run : Run σ}

/-- The greedy reduction ends where no candidate is interesting. -/
theorem greedy_of_none (h : r.firstInteresting (r.finder.candidates p) s = (none, s')) :
    r.greedy p s = (p, s') := by
  rw [greedy]
  split <;> simp_all

/-- The greedy reduction goes on with the first interesting candidate. -/
theorem greedy_of_some (h : r.firstInteresting (r.finder.candidates p) s = (some q, s')) :
    r.greedy p s = r.greedy q s' := by
  rw [greedy]
  split <;> simp_all

/-! ## A reduction without limits -/

variable (hb : r.config.budget = .unlimited)
include hb

/-- Without limits the time is never up, and a look at the clock changes neither arena nor
oracle. -/
theorem look_unlimited (run : Run σ) : ∃ run', r.look run = (false, run') ∧ run'.arena = run.arena ∧
    run'.oracle = run.oracle := by
  rw [look, hb]
  exact ⟨_, rfl, rfl, rfl⟩

/-- Without limits, trying the opportunities of a program goes as asking about the candidates. -/
theorem attemptAll_unlimited {os : List Opportunity}
    (hos : ∀ o ∈ os, o ∈ r.finder.find (ofProgram p)) (ha : (ofProgram p).Padded run.arena) :
    ∃ run',
      run'.oracle =
        (r.firstInteresting (os.filterMap fun o => p.change? o.change) run.oracle).2 ∧
      match (r.firstInteresting (os.filterMap fun o => p.change? o.change) run.oracle).1 with
      | none => r.attemptAll os run = (some (.stopped .fixpoint), run') ∧
          (ofProgram p).Padded run'.arena
      | some q => r.attemptAll os run = (none, run') ∧ run'.arena = ofProgram q := by
  induction os generalizing run with
  | nil =>
    obtain ⟨run', hlook, harena, horacle⟩ := look_unlimited hb run
    refine ⟨run', horacle, ?_, harena ▸ ha⟩
    rw [attemptAll.eq_def]
    simp only [hlook]
  | cons o rest ih =>
    obtain ⟨ho, hrest⟩ := List.forall_mem_cons.1 hos
    obtain ⟨q, hq, -⟩ := FinderConfig.leads_of_mem_find ho
    obtain ⟨run', hlook, harena, horacle⟩ := look_unlimited hb run
    obtain ⟨step, run₁, he, hstep⟩ := r.attempt_spec o run' ho hq (harena ▸ ha)
    rw [List.filterMap_cons_some (f := fun o : Opportunity => p.change? o.change) hq,
      firstInteresting, attemptAll.eq_def]
    simp only [hlook, he]
    rw [← horacle]
    cases hstep with
    | spent hm => exact absurd (by rw [hb]; rfl) hm
    | kept hv ha' _ ht =>
      have hv : r.verdict q run'.oracle = .interesting := hv
      rw [if_pos hv]
      exact ⟨run₁, congrArg Ledger.oracle ht, rfl, ha'⟩
    | rejected hv ha' ht =>
      have hv : r.verdict q run'.oracle ≠ .interesting := hv
      rw [if_neg hv]
      have horacle₁ : run₁.oracle = r.asked q run'.oracle := congrArg Ledger.oracle ht
      exact horacle₁ ▸ ih hrest ha'

/-- Without limits, the rounds of a reduction are the greedy search. -/
theorem rounds_unlimited (run : Run σ) {n : Nat} (hn : p.size < n) (ha : run.arena = ofProgram p) :
    ∃ run', r.rounds n run = (.stopped .fixpoint, run') ∧
      run'.oracle = (r.greedy p run.oracle).2 ∧
      (ofProgram (r.greedy p run.oracle).1).Padded run'.arena := by
  induction n generalizing p run with
  | zero => cases hn
  | succ n ih =>
    obtain ⟨run₁, hlook, harena₁, horacle₁⟩ := look_unlimited hb run
    obtain ⟨found, run₂, hscan, harena₂, hledger₂, h⟩ := r.scan_spec run₁
    have horacle₂ : run₂.oracle = run.oracle := (congrArg Ledger.oracle hledger₂).trans horacle₁
    rw [harena₁, ha] at harena₂ h
    rw [rounds]
    simp only [hlook, hscan]
    have hpad : (ofProgram p).Padded run₂.arena := harena₂ ▸ .refl
    rcases h with ⟨rfl, hf⟩ | ⟨rfl, hm⟩ | rfl
    · have hnone : r.firstInteresting (r.finder.candidates p) run.oracle = (none, run.oracle) := by
        rw [FinderConfig.candidates, hf]
        rfl
      rw [greedy_of_none hnone]
      exact ⟨run₂, rfl, horacle₂, hpad⟩
    · exact absurd (by rw [hb]; rfl) hm
    · obtain ⟨run₃, horacle, h⟩ := attemptAll_unlimited hb (fun _ => id) hpad
      rw [← FinderConfig.candidates, horacle₂] at horacle h
      rcases hf : r.firstInteresting (r.finder.candidates p) run.oracle with ⟨_ | q, s'⟩
      · rw [hf] at horacle h
        obtain ⟨he, hpad'⟩ := h
        rw [greedy_of_none hf]
        simp only [he]
        exact ⟨run₃, rfl, horacle, hpad'⟩
      · rw [hf] at horacle h
        obtain ⟨he, ha'⟩ := h
        have hlt := FinderConfig.size_lt_of_mem_candidates (mem_of_firstInteresting hf)
        have hs : run₃.oracle = s' := horacle
        rw [greedy_of_some hf, ← hs]
        simp only [he]
        exact ih run₃ (by omega) ha'

/-- A reduction without limits that does not ask about the unchanged program stops at a fixpoint,
with the program and the oracle that the greedy search ends with. -/
theorem reduce_unlimited (hc : r.config.checkInitial = false) (p : Program) (s : σ) :
    ∃ outcome, r.reduce (ofProgram p) s = (.ok outcome, (r.greedy p s).2) ∧
      outcome.arena = ofProgram (r.greedy p s).1 ∧ outcome.report.termination = .fixpoint := by
  have hn : p.size < (ofProgram p).liveCount + 1 := by
    rw [liveCount_ofProgram]
    exact Nat.lt_succ_self _
  obtain ⟨run, he, horacle, hpad⟩ := rounds_unlimited hb
    ⟨ofProgram p, s, [], .start (ofProgram p).liveCount p.digest, [], 0⟩ hn rfl
  obtain ⟨outcome, ho, harena, hreason, -, -⟩ := r.finish_spec .fixpoint hpad
  have hsearch : r.search ⟨ofProgram p, s, [], .start (ofProgram p).liveCount p.digest, [], 0⟩ =
      (.stopped .fixpoint, run) := by
    rw [search, hc]
    exact he
  refine ⟨outcome, ?_, harena, hreason⟩
  rw [reduce, start_ofProgram]
  simp only [hsearch, ho, horacle]

end

/-- A reduction without limits that does not ask about the unchanged program is a greedy search: it
ends with the same program, leaves the oracle in the same state, and asks the same questions, which
get the same answers. -/
theorem reduce_eq_greedy (jobName language traceId : String) (finder : FinderConfig)
    (oracle : Oracle σ) (clock : Nat → Nat) (p : Program) (s : σ) :
    let r : Reducer σ :=
      ⟨⟨jobName, language, .unlimited, false, traceId⟩, finder, oracle, clock⟩
    ∃ outcome, r.reduce (ofProgram p) s = (.ok outcome, (r.greedy p s).2) ∧
      outcome.arena.toProgram = .ok (r.greedy p s).1 ∧
      r.transcript (ofProgram p) s = r.greedyTranscript p s := by
  intro r
  obtain ⟨outcome, he, harena, -⟩ := reduce_unlimited (r := r) rfl rfl p s
  obtain ⟨logged, he', -, -⟩ := reduce_unlimited (r := r.logged) rfl rfl p (s, [])
  refine ⟨outcome, he, ?_, ?_⟩
  · rw [harena, toProgram_ofProgram]
  · rw [transcript, he', greedyTranscript]

end Reducer

end ShaderShrink

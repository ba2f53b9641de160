import Mathlib.Tactic.Ring
import ShaderShrink.Proofs.Change.Count
import ShaderShrink.Proofs.Change.Stale
import ShaderShrink.Proofs.Reduction.Budget
import ShaderShrink.Proofs.Reduction.Driver

/-!
# How long a reduction takes

Whatever the oracle answers, a reduction of a program with `n` nodes keeps at most `n - 1` changes
and asks at most `n * (n - 1) + 1` questions (`Reducer.reduce_bounded`). The argument is by what a
turn of the loop may cost: `Phase.questionsLeft` bounds the questions that can still be asked. A
look for opportunities turns the bound for the program into the length of the queue and the bound
for a smaller program, a question takes an opportunity off the queue, and a change that is kept
leads to a smaller program (`Reducer.OnTrack.advance`).
-/

namespace ShaderShrink

open Arena

variable {σ : Type}

/-- The number of questions that a reduction of a program with `nodes` nodes asks at most, the one
about the unchanged program not counted. -/
def questionBound (nodes : Nat) : Nat := nodes * (nodes - 1)

/-- Fewer nodes allow fewer questions. -/
theorem questionBound_mono {m n : Nat} (h : m ≤ n) : questionBound m ≤ questionBound n :=
  Nat.mul_le_mul h (Nat.sub_le_sub_right h 1)

/-- The questions of the first round and of the rounds after it. -/
theorem questionBound_succ (n : Nat) : 2 * n + questionBound n = questionBound (n + 1) := by
  cases n with
  | zero => rfl
  | succ n =>
    simp only [questionBound, Nat.add_sub_cancel]
    ring

/-- The number of questions that can still be asked in a phase about a program with `nodes`
nodes. -/
def Phase.questionsLeft (nodes : Nat) : Phase → Nat
  | .scanning => questionBound nodes
  | .trying queue => queue.length + questionBound (nodes - 1)
  | .done _ => 0

namespace Reducer

/-- The phases of a reduction that has come to the program `q`. -/
inductive Stage (r : Reducer σ) (q : Program) : Driver σ → Prop
  | scanning {run : Run σ} : run.arena = ofProgram q → r.Stage q ⟨.scanning, run⟩
  | trying {queue : List Opportunity} {run : Run σ} :
    (ofProgram q).Padded run.arena → (∀ o ∈ queue, o ∈ r.finder.find (ofProgram q)) →
    r.Stage q ⟨.trying queue, run⟩
  | done {halt : Halt} {run : Run σ} : (ofProgram q).Padded run.arena → r.Stage q ⟨.done halt, run⟩

/-- A reduction has come to the program `q`. It does not ask more than `questions` questions, and it
keeps fewer changes than `nodes`. -/
structure OnTrack (r : Reducer σ) (questions nodes : Nat) (q : Program) (d : Driver σ) : Prop where
  stage : r.Stage q d
  questions_le : d.run.stats.oracleCalls + d.phase.questionsLeft q.size ≤ questions
  commits_le : d.run.commits.length + q.size ≤ nodes

/-- The arenas that a reduction of `p` comes to: those between the turns of its loop, and those in
which a candidate is read. -/
def Reaches (r : Reducer σ) (p : Program) (s : σ) (a : Arena) : Prop :=
  ∃ turns, let d := r.advance^[turns] (r.opening p s)
    a = d.run.arena ∨
      ∃ o rest, d.phase = .trying (o :: rest) ∧ a = (o.change.apply d.run.arena).2

section
variable {r : Reducer σ} {p q : Program} {s : σ} {d : Driver σ} {run : Run σ}
  {questions nodes : Nat}

/-! ## One turn -/

/-- In all phases the arena holds the program, with literals behind it. -/
theorem Stage.padded (h : r.Stage q d) : (ofProgram q).Padded d.run.arena := by
  cases h with
  | scanning ha => exact ha ▸ .refl
  | trying ha => exact ha
  | done ha => exact ha

/-- A reduction that is done asks nothing any more. -/
theorem OnTrack.done {halt : Halt} {run : Run σ} (h : r.OnTrack questions nodes q d)
    (ha : run.arena = d.run.arena) (hq : run.stats.oracleCalls = d.run.stats.oracleCalls)
    (hc : run.commits = d.run.commits) : r.OnTrack questions nodes q ⟨.done halt, run⟩ where
  stage := .done (ha ▸ h.stage.padded)
  questions_le := by
    have := h.questions_le
    simp only [Phase.questionsLeft, hq]
    omega
  commits_le := hc ▸ h.commits_le

/-- There are at most two opportunities for each node of a program but the unit. -/
theorem length_find_ofProgram_le (config : FinderConfig) (q : Program) :
    (config.find (ofProgram q)).length ≤ 2 * (q.size - 1) := by
  rw [← liveCount_ofProgram q]
  exact FinderConfig.length_find_le (wellFormed_ofProgram q).rooted

/-- A look for opportunities pays for the tries after it. -/
theorem OnTrack.scanning (h : r.OnTrack questions nodes q ⟨.scanning, run⟩) :
    r.OnTrack questions nodes q (r.advance ⟨.scanning, run⟩) := by
  have ha : run.arena = ofProgram q := by
    cases h.stage with
    | scanning ha => exact ha
  have hle : run.stats.oracleCalls + questionBound q.size ≤ questions := h.questions_le
  have hpos : 0 < q.size := Nat.succ_pos _
  have hround := questionBound_succ (q.size - 1)
  rw [Nat.sub_add_cancel hpos] at hround
  have hfind := length_find_ofProgram_le r.finder q
  rw [advance_scanning, ha]
  split
  · exact h.done rfl rfl rfl
  · split
    · exact h.done rfl rfl rfl
    · split
      · exact h.done rfl rfl rfl
      · refine ⟨.trying (ha ▸ .refl) fun _ ho => ho, ?_, h.commits_le⟩
        change run.stats.oracleCalls + (_ + questionBound (q.size - 1)) ≤ questions
        omega

/-- A try takes an opportunity off the queue, or it leads to a smaller program. -/
theorem OnTrack.trying {queue : List Opportunity}
    (h : r.OnTrack questions nodes q ⟨.trying queue, run⟩) :
    ∃ q', r.OnTrack questions nodes q' (r.advance ⟨.trying queue, run⟩) := by
  obtain ⟨ha, hqueue⟩ : (ofProgram q).Padded run.ticked.arena ∧
      ∀ o ∈ queue, o ∈ r.finder.find (ofProgram q) := by
    cases h.stage with
    | trying ha hqueue => exact ⟨ha, hqueue⟩
  have hcommits : run.commits.length + q.size ≤ nodes := h.commits_le
  have hle : run.stats.oracleCalls + (queue.length + questionBound (q.size - 1)) ≤ questions :=
    h.questions_le
  simp only [Reducer.advance]
  split
  · exact ⟨q, h.done rfl rfl rfl⟩
  cases queue with
  | nil => exact ⟨q, h.done rfl rfl rfl⟩
  | cons o rest =>
    obtain ⟨ho, hrest⟩ := List.forall_mem_cons.1 hqueue
    obtain ⟨q', hq', -⟩ := FinderConfig.leads_of_mem_find ho
    obtain ⟨step, run', he, ht⟩ := r.attempt_cases o run.ticked ho hq' ha
    rw [List.length_cons] at hle
    simp only [he]
    cases ht with
    | spent => exact ⟨q, h.done rfl rfl rfl⟩
    | kept =>
      have hlt := FinderConfig.size_lt_of_mem_candidates
        (List.mem_filterMap.2 ⟨o, ho, hq'⟩)
      have hmono := questionBound_mono (Nat.le_sub_one_of_lt hlt)
      refine ⟨q', .scanning rfl, ?_, ?_⟩
      · change run.stats.oracleCalls + 1 + questionBound q'.size ≤ questions
        omega
      · change (run.commits ++ [_]).length + q'.size ≤ nodes
        rw [List.length_append, List.length_singleton]
        omega
    | rejected _ _ hb =>
      refine ⟨q, .trying hb hrest, ?_, hcommits⟩
      rw [calls_turnedDown]
      change run.stats.oracleCalls + 1 + (rest.length + questionBound (q.size - 1)) ≤ questions
      omega

/-- A turn keeps a reduction on track. -/
theorem OnTrack.advance (h : r.OnTrack questions nodes q d) :
    ∃ q', r.OnTrack questions nodes q' (r.advance d) := by
  obtain ⟨_ | queue | halt, run⟩ := d
  · exact ⟨q, h.scanning⟩
  · exact h.trying
  · exact ⟨q, h⟩

/-! ## The loop -/

/-- Turns of the loop keep a reduction on track. -/
theorem OnTrack.iterate (h : r.OnTrack questions nodes q d) (turns : Nat) :
    ∃ q', r.OnTrack questions nodes q' (r.advance^[turns] d) := by
  induction turns with
  | zero => exact ⟨q, h⟩
  | succ turns ih =>
    obtain ⟨q', h'⟩ := ih
    rw [Function.iterate_succ_apply']
    exact h'.advance

/-- The question about the unchanged program adds one to the bound. -/
theorem onTrack_opening (r : Reducer σ) (p : Program) (s : σ) :
    r.OnTrack (questionBound p.size + 1) p.size p (r.opening p s) := by
  have hstart : (initial p s).arena = ofProgram p := rfl
  obtain ⟨halt, run, he, ha, h⟩ := r.check_cases hstart
  obtain ⟨hcalls, hcommits⟩ : run.stats.oracleCalls ≤ 1 ∧ run.commits = [] := by
    rcases h with ⟨-, rfl⟩ | h
    · exact ⟨Nat.zero_le 1, rfl⟩
    · cases h with
      | spent => exact ⟨Nat.zero_le 1, rfl⟩
      | passed | failed => exact ⟨Nat.le_refl 1, rfl⟩
  have hnodes : run.commits.length + p.size ≤ p.size := by
    rw [hcommits, List.length_nil, Nat.zero_add]
  rw [opening, he]
  cases halt with
  | none =>
    refine ⟨.scanning ha, ?_, hnodes⟩
    change run.stats.oracleCalls + questionBound p.size ≤ questionBound p.size + 1
    omega
  | some halt => exact ⟨.done (ha ▸ .refl), Nat.le_trans hcalls (Nat.le_add_left ..), hnodes⟩

/-- The live nodes of every arena that a reduction comes to form a tree. -/
theorem Reaches.rooted {a : Arena} (h : r.Reaches p s a) : a.Rooted := by
  obtain ⟨turns, h⟩ := h
  obtain ⟨q, ht⟩ := (r.onTrack_opening p s).iterate turns
  have hw := ht.stage.padded.wellFormed (wellFormed_ofProgram q)
  rcases h with rfl | ⟨o, rest, hphase, rfl⟩
  · exact hw.rooted
  · have ho : o ∈ r.finder.find (ofProgram q) := by
      generalize r.advance^[turns] (r.opening p s) = d at ht hphase
      cases ht.stage with
      | scanning | done => cases hphase
      | trying _ hqueue =>
        cases hphase
        exact hqueue o List.mem_cons_self
    have hs := (FinderConfig.found_of_mem_find (wellFormed_ofProgram q) ho).1
    exact (Change.wellFormed_try hw (hs.mono ht.stage.padded.evolves)).1.rooted

/-- What a search stops with is within the bounds. -/
theorem search_onTrack (r : Reducer σ) (p : Program) (s : σ) :
    ∃ q halt run, r.search (initial p s) = (halt, run) ∧
      r.OnTrack (questionBound p.size + 1) p.size q ⟨.done halt, run⟩ := by
  obtain ⟨turns, h⟩ := r.yields_search p s
  obtain ⟨q, ht⟩ := (r.onTrack_opening p s).iterate turns
  exact ⟨q, _, _, rfl, h ▸ ht⟩

end

/-- A reduction of a program with `n` nodes ends whatever the oracle answers: after some turns its
loop is done, with the result of the search. In every arena with `m` live nodes that it comes to, at
most `2 * (m - 1)` opportunities are found. It keeps at most `n - 1` changes and asks at most
`n * (n - 1) + 1` questions. -/
theorem reduce_bounded (r : Reducer σ) (p : Program) (s : σ) :
    let n := (ofProgram p).liveCount
    (∀ a, r.Reaches p s a → (r.finder.find a).length ≤ 2 * (a.liveCount - 1)) ∧
    (∃ turns halt run, r.advance^[turns] (r.opening p s) = ⟨.done halt, run⟩ ∧
      r.search (initial p s) = (halt, run)) ∧
    ∃ outcome, (r.reduce (ofProgram p) s).1 = .ok outcome ∧
      outcome.report.commits.length ≤ n - 1 ∧
      (r.transcript (ofProgram p) s).length ≤ n * (n - 1) + 1 := by
  intro n
  have hn : n = p.size := liveCount_ofProgram p
  refine ⟨fun a ha => FinderConfig.length_find_le ha.rooted, ?_, ?_⟩
  · obtain ⟨turns, h⟩ := r.yields_search p s
    exact ⟨turns, _, _, h, rfl⟩
  · obtain ⟨q, reason, run, outcome, e⟩ := r.logged.exists_ended p (s, [])
    obtain ⟨q', halt, run', he, ht⟩ := r.logged.search_onTrack p (s, [])
    rw [e.search] at he
    cases he
    have hcommits : run.commits.length + q'.size ≤ p.size := ht.commits_le
    have hquestions : run.stats.oracleCalls ≤ questionBound p.size + 1 := ht.questions_le
    have hcalls := r.keeps_callsWithin.ended ⟨rfl, fun _ => Nat.zero_le _⟩ e
    have hpos : 0 < q'.size := Nat.succ_pos _
    refine ⟨outcome, by rw [e.reduce_eq], ?_, ?_⟩
    · rw [e.commits, hn]
      omega
    · rw [e.transcript_eq, ← hcalls.counted, hn]
      exact hquestions

end Reducer

end ShaderShrink

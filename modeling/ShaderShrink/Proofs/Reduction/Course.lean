import ShaderShrink.Proofs.Reduction.Attempt
import ShaderShrink.Proofs.Reduction.Parts

/-!
# The course of a round

A round tries what was found in the program one after another. `Reducer.Course` is the course that
this takes, with a rule for each thing that can happen next; `Reducer.course_attemptAll` says that
there are no others, and what holds of rounds is proved by induction on their course.
`Reducer.Rounded` is what counts of a round for the rounds after it.
-/

namespace ShaderShrink

open Arena

variable {σ : Type}

namespace Reducer

/-- How trying some opportunities of the program `p` goes, and what comes of it. -/
inductive Course (r : Reducer σ) (p : Program) :
    List Opportunity → Run σ → Option Halt × Run σ → Prop
  | late {os : List Opportunity} {run : Run σ} :
    r.Course p os run (some (.stopped .timeBudgetExhausted), run.ticked)
  | exhausted {run : Run σ} : r.Course p [] run (some (.stopped .fixpoint), run.ticked)
  | spent {o : Opportunity} {rest : List Opportunity} {run : Run σ} :
    r.questionsSpent run.ticked = true →
    r.Course p (o :: rest) run (some (.stopped .oracleBudgetExhausted), run.ticked)
  | kept {o : Opportunity} {rest : List Opportunity} {q : Program} {run run' : Run σ} :
    o ∈ r.finder.find (ofProgram p) → p.change? o.change = some q →
    r.Tried p q o run.ticked .committed run' → r.Course p (o :: rest) run (none, run')
  | rejected {o : Opportunity} {rest : List Opportunity} {q : Program} {run run' : Run σ}
    {result : Option Halt × Run σ} :
    o ∈ r.finder.find (ofProgram p) → p.change? o.change = some q →
    r.Tried p q o run.ticked .next run' → r.Course p rest run' result →
    r.Course p (o :: rest) run result

/-- The limit is reached for which a reduction stops. -/
def Reached (r : Reducer σ) (p : Program) (run : Run σ) : Termination → Prop
  | .oracleBudgetExhausted => r.questionsSpent run = true
  | .commitBudgetExhausted => r.commitsSpent run = true ∧ r.finder.find (ofProgram p) ≠ []
  | _ => True

/-- What a round can come to that starts with the program `p` and some kept changes: one more change
is kept, or the round stops. -/
inductive Rounded (r : Reducer σ) (p : Program) (commits : List CommitRecord) :
    Option Halt × Run σ → Prop
  | kept {q : Program} {record : CommitRecord} {run : Run σ} :
    q ∈ r.finder.candidates p → run.arena = ofProgram q → run.commits = commits ++ [record] →
    r.Rounded p commits (none, run)
  | stopped {reason : Termination} {run : Run σ} :
    (ofProgram p).Padded run.arena → run.commits = commits → r.Reached p run reason →
    r.Rounded p commits (some (.stopped reason), run)

section
variable {r : Reducer σ} {p q : Program} {run run' : Run σ} {o : Opportunity}
  {os : List Opportunity} {result : Option Halt × Run σ}

/-- Trying opportunities of a program takes such a course. -/
theorem course_attemptAll (hos : ∀ o ∈ os, o ∈ r.finder.find (ofProgram p))
    (ha : (ofProgram p).Padded run.arena) : r.Course p os run (r.attemptAll os run) := by
  induction os generalizing run with
  | nil =>
    rw [attemptAll_nil]
    split
    · exact .late
    · exact .exhausted
  | cons o rest ih =>
    obtain ⟨ho, hrest⟩ := List.forall_mem_cons.1 hos
    obtain ⟨q, hq, -⟩ := FinderConfig.leads_of_mem_find ho
    obtain ⟨step, run', he, h⟩ := r.attempt_cases o run.ticked ho hq ha
    rw [attemptAll_cons]
    split
    · exact .late
    · rw [he]
      cases h with
      | spent hs => exact .spent hs
      | kept hs hv => exact .kept ho hq (.kept hs hv)
      | rejected hs hv hb => exact .rejected ho hq (.rejected hs hv hb) (ih hrest hb)

/-- Trying all opportunities that were found makes a round. -/
theorem Course.rounded (h : r.Course p os run result) (ha : (ofProgram p).Padded run.arena) :
    r.Rounded p run.commits result := by
  induction h with
  | late | exhausted => exact .stopped ha rfl trivial
  | spent hs => exact .stopped ha rfl hs
  | kept ho hq ht =>
    cases ht with
    | kept => exact .kept (List.mem_filterMap.2 ⟨_, ho, hq⟩) rfl rfl
  | rejected _ _ ht _ ih =>
    cases ht with
    | rejected _ _ hb => exact ih hb

/-- A round does what `Rounded` lists. -/
theorem rounded_round (ha : run.arena = ofProgram p) :
    r.Rounded p run.commits (r.round run) := by
  have hpad : (ofProgram p).Padded run.ticked.scanned.arena := ha ▸ .refl
  unfold round
  split
  · exact .stopped hpad rfl trivial
  · split
    · exact .stopped hpad rfl trivial
    · next hf =>
      split
      · next hs => exact .stopped hpad rfl ⟨hs, ha ▸ hf⟩
      · rw [ha]
        exact (course_attemptAll (fun _ => id) hpad).rounded hpad

/-- A round that does not stop leads to a smaller program. -/
theorem arena_of_round (ha : run.arena = ofProgram p) (h : r.round run = (none, run')) :
    ∃ q, run'.arena = ofProgram q := by
  have hr := rounded_round (r := r) ha
  rw [h] at hr
  cases hr with
  | kept _ ha' _ => exact ⟨_, ha'⟩

end

end Reducer

end ShaderShrink

import ShaderShrink.Proofs.Reduction.Search
import ShaderShrink.Proofs.Reduction.Transcript

/-!
# Soundness of reductions

The oracle judges a program in an arena that is edited in place, while the outcome is read at the
end. `Reducer.reduce_sound` says that the two never come apart: the text of the outcome is the text
of the last call that was answered "interesting". The invariant is `Reducer.Backed`.
-/

namespace ShaderShrink

open Arena

variable {σ : Type}

namespace Reducer

/-- The calls so far back the program `q` that a reduction of `p` has come to: the last change that
was kept was accepted by the last call that was answered "interesting", which was about `q`. -/
structure Backed (r : Reducer σ) (p q : Program) (t : Ledger (σ × List Call)) : Prop where
  calls : t.calls = t.oracle.2.length
  accepted {record : CommitRecord} : t.commits.getLast? = some record →
    ∃ earlier later, t.oracle.2 = earlier ++ ⟨r.text q, .interesting⟩ :: later ∧
      record.oracleCall = earlier.length + 1 ∧ ∀ call ∈ later, call.verdict ≠ .interesting
  unchanged : t.commits = [] → q = p ∧
    (r.config.checkInitial = true → t.oracle.2.head? = some ⟨r.text p, .interesting⟩)

section
variable {r : Reducer σ} {p : Program}

/-- Tries keep a program backed by the calls. -/
theorem invariant_backed : r.logged.Invariant (r.Backed p) where
  kept {_ q t record} hP _ hv hc := by
    have hlog : (r.logged.asked q t.oracle).2 = t.oracle.2 ++ [⟨r.text q, .interesting⟩] := by
      rw [← hv]
      rfl
    constructor
    · rw [hlog, List.length_append, hP.calls]
      rfl
    · intro record' hl
      rw [List.getLast?_append, List.getLast?_singleton] at hl
      cases hl
      exact ⟨t.oracle.2, [], hlog, hc.trans (by rw [hP.calls]), nofun⟩
    · intro hn
      exact absurd hn (by simp)
  rejected {_ q t} hP _ hv := by
    let call : Call := ⟨r.text q, r.logged.verdict q t.oracle⟩
    have hlog : (r.logged.asked q t.oracle).2 = t.oracle.2 ++ [call] := rfl
    constructor
    · rw [hlog, List.length_append, hP.calls]
      rfl
    · intro record hl
      obtain ⟨earlier, later, he, hcall, hlater⟩ := hP.accepted hl
      refine ⟨earlier, later ++ [call], ?_, hcall, ?_⟩
      · rw [hlog, he, List.append_assoc, List.cons_append]
      · intro c hm
        rcases List.mem_append.1 hm with hm | hm
        · exact hlater c hm
        · rw [List.mem_singleton.1 hm]
          exact hv
    · intro hn
      obtain ⟨hq, hfirst⟩ := hP.unchanged hn
      refine ⟨hq, ?_⟩
      intro hc
      rw [hlog, List.head?_append, hfirst hc]
      rfl

end

/-- The text of the outcome of a reduction is the text that the oracle was asked about in the call
that the last record of a kept change names; that call was answered "interesting", and no later one
was. If no change was kept, the outcome is the program itself; if moreover the unchanged program was
asked about first and passed, the first call was about the outcome and was answered
"interesting". -/
theorem reduce_sound (r : Reducer σ) (p : Program) (s : σ) :
    ∃ outcome job, (r.reduce (ofProgram p) s).1 = .ok outcome ∧
      outcome.job r.config.jobName r.config.language = .ok job ∧
      (∀ record, outcome.report.commits.getLast? = some record →
        ∃ earlier later,
          r.transcript (ofProgram p) s = earlier ++ ⟨job.encode, .interesting⟩ :: later ∧
          record.oracleCall = earlier.length + 1 ∧
          ∀ call ∈ later, call.verdict ≠ .interesting) ∧
      (outcome.report.commits = [] →
        outcome.arena.toProgram = .ok p ∧
        (r.config.checkInitial = true →
          outcome.report.termination ≠ .initialNotInteresting →
          r.transcript (ofProgram p) s ≠ [] →
          (r.transcript (ofProgram p) s).head? = some ⟨job.encode, .interesting⟩)) := by
  obtain ⟨outcome, q, t, he, harena, hcommits, -, h⟩ :=
    reduce_spec (r := r.logged) (p := p) (s := (s, [])) (invariant_backed (p := p))
      (fun hc => ⟨rfl, nofun, fun _ => ⟨rfl, fun hc' => nomatch hc.symm.trans hc'⟩⟩)
      (fun _ hv => ⟨rfl, nofun, fun _ => ⟨rfl, fun _ => by rw [← hv]; rfl⟩⟩)
  have hread : outcome.arena.toProgram = .ok q := by rw [harena, toProgram_ofProgram]
  have hlog : r.transcript (ofProgram p) s = t.oracle.2 := by rw [transcript, he]
  refine ⟨outcome, ⟨r.config.jobName, r.config.language, q⟩, ?_, ?_, ?_⟩
  · rw [r.reduce_logged (ofProgram p) s [], he]
  · rw [ReductionOutcome.job, hread]
  rw [hlog, hcommits, hread]
  generalize outcome.report.termination = reason at h
  cases h with
  | unasked => exact ⟨nofun, fun _ => ⟨rfl, fun _ _ hne => absurd rfl hne⟩⟩
  | dull => exact ⟨nofun, fun _ => ⟨rfl, fun _ hr => absurd rfl hr⟩⟩
  | searched _ hP =>
    constructor
    · intro record hl
      exact hP.accepted hl
    · intro hn
      obtain ⟨rfl, hfirst⟩ := hP.unchanged hn
      exact ⟨rfl, fun hc _ _ => hfirst hc⟩

end Reducer

end ShaderShrink

import ShaderShrink.Proofs.Program.Digest
import ShaderShrink.Proofs.Reduction.Keeps

/-!
# What the digests of a report tell

A report names the program that a reduction started with and the one that it ended with by their
digests. A reduction that kept a change has come to a smaller program (`Reducer.invariant_shrunk`),
so no changes lead back to the start, and the digests differ exactly if a change was kept
(`Reducer.digests_tell`).
-/

namespace ShaderShrink

open Arena

variable {σ : Type}

namespace Reducer

/-- Either nothing was kept and the program is still `p`, or changes were kept and the program has
become smaller. -/
def Shrunk (p q : Program) (commits : List CommitRecord) : Prop :=
  commits = [] ∧ q = p ∨ commits ≠ [] ∧ q.size < p.size

section
variable {r : Reducer σ} {p q : Program} {s : σ} {reason : Termination} {run : Run σ}
  {outcome : ReductionOutcome} {commits : List CommitRecord}

/-- The program at the end is the one at the start exactly if nothing was kept. -/
theorem Shrunk.eq_iff (h : Shrunk p q commits) : q = p ↔ commits = [] := by
  rcases h with ⟨hc, hq⟩ | ⟨hc, hlt⟩
  · exact iff_of_true hq hc
  · exact iff_of_false (fun hq => Nat.lt_irrefl _ (hq ▸ hlt)) hc

/-- All along, nothing was kept or the program has become smaller. -/
theorem invariant_shrunk (r : Reducer σ) (p : Program) :
    r.Invariant fun q t => Shrunk p q t.commits where
  kept {q _ t _} h hq _ _ := by
    have hlt := FinderConfig.size_lt_of_mem_candidates hq
    refine .inr ⟨List.append_ne_nil_of_right_ne_nil _ (List.cons_ne_nil _ _), ?_⟩
    rcases h with ⟨-, rfl⟩ | ⟨-, hle⟩
    · exact hlt
    · exact Nat.lt_trans hlt hle
  rejected h _ _ := h

/-- The digest of the program at the start is written down once. -/
theorem keeps_initialHash (r : Reducer σ) (digest : String) :
    r.Keeps fun run => run.stats.initialHash = digest where
  ticked h := h
  scanned h := h
  checked hc h := by
    cases hc <;> exact h
  tried {_ q _ run _ _} ht h := by
    cases ht with
    | spent => exact h
    | kept => exact h
    | rejected =>
      unfold turnedDown
      cases r.verdict q run.oracle <;> exact h

/-- A report names the programs at the start and at the end by their digests. -/
theorem Ended.digests (e : r.Ended p s q reason run outcome) :
    outcome.report.stats.initialHash = p.digest ∧
      outcome.report.stats.reducedHash = q.digest := by
  have hstart : run.stats.initialHash = p.digest :=
    (r.keeps_initialHash p.digest).ended rfl e
  have hf := e.finish
  rw [Reducer.finish, e.padded.toProgram_eq] at hf
  cases hf
  exact ⟨hstart, rfl⟩

/-- At the end nothing was kept or the program has become smaller. -/
theorem Ended.shrunk (e : r.Ended p s q reason run outcome) :
    Shrunk p q outcome.report.commits := by
  have hempty : Shrunk p p [] := .inl ⟨rfl, rfl⟩
  obtain ⟨outcome', q', t, he, harena, hcommits, -, h⟩ :=
    reduce_spec (s := s) (r.invariant_shrunk p) (fun _ => hempty) fun _ _ => hempty
  have ho : outcome' = outcome :=
    (Except.ok.inj (congrArg Prod.fst (e.reduce.symm.trans he))).symm
  have hq : q' = q := by
    have hread := toProgram_ofProgram q'
    rw [← harena, ho, e.arena, toProgram_ofProgram] at hread
    exact (Except.ok.inj hread).symm
  rw [← ho, hcommits, ← hq]
  generalize outcome'.report.termination = reason at h
  cases h with
  | unasked | dull => exact .inl ⟨rfl, rfl⟩
  | searched _ hs _ => exact hs

end

/-- The bytes that are hashed are those of one program. So the two digests of a report, which are
those of the programs at the start and at the end, are the same exactly if no change was kept,
unless SHA-256 collides on the bytes of these two programs. -/
theorem digests_tell :
    Function.Injective Program.hashed ∧
      ∀ {σ : Type} (r : Reducer σ) (p : Program) (s : σ),
        ∃ outcome q, (r.reduce (ofProgram p) s).1 = .ok outcome ∧
          outcome.arena.toProgram = .ok q ∧
          outcome.report.stats.initialHash = "sha256:" ++ Digest.sha256Hex p.hashed ∧
          outcome.report.stats.reducedHash = "sha256:" ++ Digest.sha256Hex q.hashed ∧
          ((Digest.sha256 q.hashed = Digest.sha256 p.hashed → q.hashed = p.hashed) →
            (outcome.report.stats.reducedHash = outcome.report.stats.initialHash ↔
              outcome.report.commits = [])) := by
  refine ⟨Program.hashed_injective, fun r p s => ?_⟩
  obtain ⟨q, reason, run, outcome, e⟩ := r.exists_ended p s
  obtain ⟨horiginal, hreduced⟩ := e.digests
  refine ⟨outcome, q, by rw [e.reduce], by rw [e.arena, toProgram_ofProgram], horiginal, hreduced,
    fun hcollide => ?_⟩
  rw [hreduced, horiginal, Program.digest_inj hcollide, e.shrunk.eq_iff]

/-- `int x;` gives way to the empty program, and the bytes of the two do not collide. -/
theorem digests_tell_global :
    let p : Program := ⟨[.global "int" "x" none]⟩
    let r : Reducer Unit :=
      ⟨.ofJob "job" "glsl", .default, fun _ s => (.interesting, s), fun _ => 0⟩
    ∃ outcome, (r.reduce (ofProgram p) ()).1 = .ok outcome ∧
      outcome.arena = ofProgram ⟨[]⟩ ∧
      (outcome.report.stats.reducedHash = outcome.report.stats.initialHash ↔
        outcome.report.commits = []) := by
  intro p r
  obtain ⟨outcome, q, he, hq, -, -, h⟩ := digests_tell.2 r p ()
  have harena : outcome.arena = ofProgram ⟨[]⟩ := by
    have hrun : (r.reduce (ofProgram p) ()).1.map ReductionOutcome.arena =
        .ok (ofProgram ⟨[]⟩) := by decide +kernel
    rw [he] at hrun
    exact Except.ok.inj hrun
  rw [harena, toProgram_ofProgram] at hq
  refine ⟨outcome, he, harena, h fun hcollide => ?_⟩
  have hdiffer : Digest.sha256 (Program.hashed ⟨[]⟩) ≠ Digest.sha256 p.hashed := by
    rw [Program.hashed, Program.hashed, byteArray_toList, byteArray_toList]
    decide +kernel
  rw [← Except.ok.inj hq] at hcollide
  exact absurd hcollide hdiffer

end Reducer

end ShaderShrink

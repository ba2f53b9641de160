import ShaderShrink.Proofs.Reduction.Greedy

/-!
# Fixpoints of reductions

Where the oracle's answer depends on the text alone, a reduction that stops at a fixpoint has
nothing left to do: no single change of the outcome is interesting, and reducing the outcome again
keeps no change (`Reducer.reduce_fixpoint`).
-/

namespace ShaderShrink

open Arena

variable {σ : Type}

namespace Reducer

section
variable {r : Reducer σ} {p : Program} {s : σ} {judge : String → Verdict}

/-- Where every candidate is turned down, no change is kept. -/
theorem reduce_of_refused (h : ∀ q ∈ r.finder.candidates p, ∀ s, r.verdict q s ≠ .interesting)
    (s : σ) : ∃ outcome, (r.reduce (ofProgram p) s).1 = .ok outcome ∧
      outcome.report.commits = [] ∧ outcome.arena = ofProgram p := by
  have hI : r.Invariant fun q t => q = p ∧ t.commits = [] := by
    refine ⟨?_, fun hP _ _ => hP⟩
    rintro q q' t record ⟨rfl, -⟩ hq hv -
    -- a candidate that was kept was not turned down
    exact absurd hv (h q' hq _)
  obtain ⟨outcome, q, t, he, harena, hcommits, -, h⟩ :=
    reduce_spec hI (s := s) (fun _ => ⟨rfl, rfl⟩) fun _ _ => ⟨rfl, rfl⟩
  refine ⟨outcome, by rw [he], ?_⟩
  rw [hcommits, harena]
  generalize outcome.report.termination = reason at h
  cases h with
  | unasked => exact ⟨rfl, rfl⟩
  | dull => exact ⟨rfl, rfl⟩
  | searched _ hP _ => exact ⟨hP.2, by rw [hP.1]⟩

/-- A reduction that stops at a fixpoint has turned down every candidate of its outcome. -/
theorem refused_of_fixpoint {outcome : ReductionOutcome}
    (h : (r.reduce (ofProgram p) s).1 = .ok outcome)
    (hfix : outcome.report.termination = .fixpoint) :
    ∃ q, outcome.arena = ofProgram q ∧
      ∀ q' ∈ r.finder.candidates q, ∃ s, r.verdict q' s ≠ .interesting := by
  have hI : r.Invariant fun _ _ => True := ⟨fun _ _ _ _ => trivial, fun _ _ _ => trivial⟩
  obtain ⟨outcome', q, t, he, harena, -, -, hends⟩ :=
    reduce_spec hI (p := p) (s := s) (fun _ => trivial) fun _ _ => trivial
  rw [he] at h
  cases h
  refine ⟨q, harena, ?_⟩
  rw [hfix] at hends
  cases hends with
  | searched _ _ hrefused => exact hrefused rfl

end

/-- The oracle goes by the text alone, and a reduction stops at a fixpoint. Then every change that
is found in the outcome gives a program whose text is not interesting, and a further reduction of
the outcome with the same finder, job name, language and oracle keeps no change, whatever its limits
are and whether it asks about the unchanged program or not. -/
theorem reduce_fixpoint (r : Reducer σ) (p : Program) (s : σ) (judge : String → Verdict)
    (hjudge : ∀ text s, (r.oracle text s).1 = judge text) (outcome : ReductionOutcome)
    (h : (r.reduce (ofProgram p) s).1 = .ok outcome)
    (hfix : outcome.report.termination = .fixpoint) :
    (∀ o ∈ r.finder.find outcome.arena, ∃ edit after q,
      o.change.apply outcome.arena = (.ok edit, after) ∧ after.toProgram = .ok q ∧
      judge (ShaderJob.encode ⟨r.config.jobName, r.config.language, q⟩) ≠ .interesting) ∧
    ∀ (again : Reducer σ) (t : σ), again.finder = r.finder → again.oracle = r.oracle →
      again.config.jobName = r.config.jobName → again.config.language = r.config.language →
      ∃ second, (again.reduce outcome.arena t).1 = .ok second ∧ second.report.commits = [] ∧
        second.arena.toProgram = outcome.arena.toProgram := by
  obtain ⟨q, harena, hrefused⟩ := refused_of_fixpoint h hfix
  have hdull : ∀ q' ∈ r.finder.candidates q, judge (r.text q') ≠ .interesting := by
    intro q' hq'
    obtain ⟨s, hv⟩ := hrefused q' hq'
    rwa [verdict, hjudge] at hv
  rw [harena]
  constructor
  · intro o ho
    obtain ⟨q', hq', -, hlead⟩ := FinderConfig.leads_of_mem_find ho
    obtain ⟨edit, after, back, lead⟩ := hlead _ .refl
    exact ⟨edit, after, q', lead.apply_eq, lead.toProgram_eq,
      hdull q' (List.mem_filterMap.2 ⟨o, ho, hq'⟩)⟩
  · intro again t hfinder horacle hname hlanguage
    have hverdict (q' : Program) (s : σ) : again.verdict q' s = judge (r.text q') := by
      rw [verdict, text, horacle, hname, hlanguage]
      exact hjudge _ _
    have hrefused' : ∀ q' ∈ again.finder.candidates q, ∀ s,
        again.verdict q' s ≠ .interesting := by
      intro q' hq' s
      rw [hfinder] at hq'
      rw [hverdict]
      exact hdull q' hq'
    obtain ⟨second, he, hcommits, hsecond⟩ := again.reduce_of_refused hrefused' t
    exact ⟨second, he, hcommits, by rw [hsecond]⟩

/-- `int x = -y;` is a fixpoint for an oracle that finds nothing interesting. -/
theorem reduce_fixpoint_negation :
    let p : Program := ⟨[.global "int" "x" (some (.unary .neg (.ident "y")))]⟩
    let r : Reducer Unit :=
      ⟨.ofJob "job" "glsl", .default, fun _ s => (.notInteresting, s), fun _ => 0⟩
    ∃ outcome, (r.reduce (ofProgram p) ()).1 = .ok outcome ∧
      ∃ second, (r.reduce outcome.arena ()).1 = .ok second ∧ second.report.commits = [] := by
  intro p r
  obtain ⟨outcome, he, -, hfix⟩ := reduce_unlimited (r := r) rfl rfl p ()
  have h := reduce_fixpoint r p () (fun _ => .notInteresting) (fun _ _ => rfl) outcome
    (by rw [he]) hfix
  obtain ⟨second, he', hcommits, -⟩ := h.2 r () rfl rfl rfl rfl
  exact ⟨outcome, by rw [he], second, he', hcommits⟩

end Reducer

end ShaderShrink

import Mathlib.Logic.Relation
import ShaderShrink.Proofs.Change.Local
import ShaderShrink.Proofs.Job.Coding
import ShaderShrink.Proofs.Job.Scope
import ShaderShrink.Proofs.Program.Nesting
import ShaderShrink.Proofs.Reduction.Search
import ShaderShrink.Proofs.Reduction.Transcript

/-!
# The texts of a reduction can be read back

The text of a job can be decoded if it does not nest too deep, and no change makes a program nest
deeper (`FinderConfig.depth_le_of_mem_candidates`): an operand or an inner statement is a part of
what it replaces, and an expression nests at least as deep as a literal. So if the job that a
reduction starts with can be read back, then all that the oracle is asked about can be, and the
outcome as well (`Reducer.reduce_legible`).
-/

namespace ShaderShrink

open Arena

/-! ## Changes -/

/-- An expression has an object around it. -/
theorem Outline.nesting_pos {t : Outline} (h : t.data.category = .expression) : 0 < t.nesting := by
  obtain ⟨data, parts⟩ := t
  have hbrackets : 0 < data.brackets := by
    cases data with
    | function => cases h
    | _ => exact Nat.succ_pos _
  rw [nesting]
  omega

/-- What stays of a part nests no deeper than the part. -/
theorem Change.Leaves.nesting_le {p : Program} {c : Change} {position : List Nat}
    {above old : Outline} {stays : List Outline} (h : c.Leaves p position above old stays) :
    Outline.nestingAll stays ≤ old.nesting := by
  cases h with
  | operand _ _ hpart _ | inner _ _ hpart _ =>
    exact Nat.max_le.2 ⟨Outline.nesting_le_of_part hpart, Nat.zero_le _⟩
  | @literal _ _ value hcat _ _ =>
    have hone : Outline.nestingAll [.node value.toPayload []] = 1 := by cases value <;> rfl
    rw [hone]
    exact Outline.nesting_pos hcat
  | statement | declaration => exact Nat.zero_le _

namespace FinderConfig

variable {config : FinderConfig} {p q : Program}

/-- No change makes a program nest deeper. -/
theorem depth_le_of_mem_candidates (h : q ∈ config.candidates p) :
    q.toJson.depth ≤ p.toJson.depth := by
  obtain ⟨o, ho, hq⟩ := List.mem_filterMap.1 h
  obtain ⟨edit, after, q', path, i, above, old, stays, happly, -, hread, -, e⟩ :=
    Change.exists_localEdit ho
  rw [Program.change?, happly] at hq
  simp only [hread] at hq
  cases hq
  rw [q.depth_toJson, p.depth_toJson, e.outline_eq]
  exact Outline.nesting_splice_le e.old_eq e.leaves.nesting_le

/-- Changes that are found one after another lead from the program `p` to the program `q`. -/
def Reaches (config : FinderConfig) : Program → Program → Prop :=
  Relation.ReflTransGen fun p q => q ∈ config.candidates p

/-- The encodings of the programs that a reduction reaches nest no deeper than that of the first
one. -/
theorem Reaches.depth_le (h : config.Reaches p q) : q.toJson.depth ≤ p.toJson.depth := by
  induction h with
  | refl => exact Nat.le_refl _
  | tail _ hstep ih => exact Nat.le_trans (depth_le_of_mem_candidates hstep) ih

end FinderConfig

/-- A text that can be decoded is not refused as undecodable. -/
theorem ShaderJob.validate_ne_undecodable {text : String} {job : ShaderJob}
    (h : decode text = .ok job) (cause : Json.Failure) :
    validate text ≠ .error (.undecodable cause) := by
  rw [validate, h]
  intro herror
  cases hcheck : job.program.check with
  | ok => simp [hcheck, Except.map] at herror
  | error e =>
    simp only [hcheck, Except.map, Except.error.injEq] at herror
    subst herror
    rcases (job.program.check_eq.2 _).1 hcheck with ⟨-, he⟩ | ⟨-, i, hi, -⟩
    · cases he
    · cases hi

/-! ## Reductions -/

namespace Reducer

variable {σ : Type} {r : Reducer σ} {p : Program}

/-- A reduction of `p` has come to `q`, and all its calls were about programs that changes lead
to. -/
structure Asks (r : Reducer σ) (p q : Program) (t : Ledger (σ × List Call)) : Prop where
  reached : r.finder.Reaches p q
  calls : ∀ call ∈ t.oracle.2, ∃ c, r.finder.Reaches p c ∧ call.text = r.text c

/-- A question about one more program that changes lead to. -/
theorem Asks.ask {q c q' : Program} {t : Ledger (σ × List Call)} {calls : Nat}
    {commits : List CommitRecord} (h : r.Asks p q t) (hc : r.finder.Reaches p c)
    (hq : r.finder.Reaches p q') :
    r.Asks p q' ⟨r.logged.asked c t.oracle, calls, commits⟩ := by
  refine ⟨hq, fun call hcall => ?_⟩
  rcases List.mem_append.1 hcall with hcall | hcall
  · exact h.calls call hcall
  · rw [List.mem_singleton.1 hcall]
    exact ⟨c, hc, rfl⟩

/-- All along, the oracle is asked about jobs of programs that can be reached. -/
theorem invariant_asks (r : Reducer σ) (p : Program) : r.logged.Invariant (r.Asks p) where
  kept hP hq _ _ := hP.ask (hP.reached.tail hq) (hP.reached.tail hq)
  rejected hP hq _ := hP.ask (hP.reached.tail hq) hP.reached

/-- A job that nests no deeper than texts may is decoded from its text. -/
theorem decode_text {c : Program} (hc : r.finder.Reaches p c)
    (h : (ShaderJob.mk r.config.jobName r.config.language p).toJson.depth ≤ 127) :
    ShaderJob.decode (r.text c) = .ok ⟨r.config.jobName, r.config.language, c⟩ := by
  have hdepth (q : Program) : (ShaderJob.mk r.config.jobName r.config.language q).toJson.depth =
      q.toJson.depth + 1 := by
    simp [ShaderJob.toJson, Json.depth, Json.depthMembers]
  have hle := hc.depth_le
  rw [hdepth] at h
  rw [text, (job_texts_roundtrip.1 _).1, hdepth, if_pos (by omega)]

/-- If the job of a program nests at most 127 arrays and objects inside each other, then every text
that the oracle is asked about in a reduction of the program is decoded as the job with the name and
the language of the reduction and a program that changes lead to, so that it is never refused as
undecodable; and the text of the outcome is decoded as the job of the outcome. -/
theorem reduce_legible (r : Reducer σ) (p : Program) (s : σ)
    (h : (ShaderJob.mk r.config.jobName r.config.language p).toJson.depth ≤ 127) :
    (∀ call ∈ r.transcript (ofProgram p) s, ∃ c, r.finder.Reaches p c ∧
      call.text = ShaderJob.encode ⟨r.config.jobName, r.config.language, c⟩ ∧
      ShaderJob.decode call.text = .ok ⟨r.config.jobName, r.config.language, c⟩ ∧
      ∀ cause, ShaderJob.validate call.text ≠ .error (.undecodable cause)) ∧
    ∃ outcome q, (r.reduce (ofProgram p) s).1 = .ok outcome ∧ r.finder.Reaches p q ∧
      outcome.arena.toProgram = .ok q ∧
      outcome.job r.config.jobName r.config.language =
        .ok ⟨r.config.jobName, r.config.language, q⟩ ∧
      ShaderJob.decode (ShaderJob.encode ⟨r.config.jobName, r.config.language, q⟩) =
        .ok ⟨r.config.jobName, r.config.language, q⟩ := by
  have hstart : r.Asks p p ⟨(s, []), 0, []⟩ := ⟨.refl, nofun⟩
  obtain ⟨outcome, q, t, he, harena, -, -, hends⟩ :=
    reduce_spec (r.invariant_asks p) (fun _ => hstart) fun _ _ => hstart.ask .refl .refl
  have hasks : r.Asks p q t := by
    generalize outcome.report.termination = reason at hends
    cases hends with
    | unasked => exact hstart
    | dull => exact hstart.ask .refl .refl
    | searched _ hP => exact hP
  have hlog : r.transcript (ofProgram p) s = t.oracle.2 := by rw [transcript, he]
  have hread : outcome.arena.toProgram = .ok q := by rw [harena, toProgram_ofProgram]
  constructor
  · intro call hcall
    obtain ⟨c, hc, htext⟩ := hasks.calls call (hlog ▸ hcall)
    have hdecode := decode_text hc h
    rw [← htext] at hdecode
    exact ⟨c, hc, htext, hdecode, ShaderJob.validate_ne_undecodable hdecode⟩
  · refine ⟨outcome, q, ?_, hasks.reached, hread, ?_, decode_text hasks.reached h⟩
    · rw [r.reduce_logged (ofProgram p) s [], he]
    · rw [ReductionOutcome.job, hread]

/-- All texts of a reduction of `void main() { discard; }` can be read back. -/
theorem reduce_legible_discard :
    let p : Program := ⟨[.function "void" "main" [] [.discard]]⟩
    let r : Reducer Unit :=
      ⟨.ofJob "job" "glsl", .default, fun _ s => (.interesting, s), fun _ => 0⟩
    (ShaderJob.mk "job" "glsl" p).toJson.depth ≤ 127 ∧
    ∀ call ∈ r.transcript (ofProgram p) (), ∀ cause,
      ShaderJob.validate call.text ≠ .error (.undecodable cause) := by
  intro p r
  have hdepth : (ShaderJob.mk "job" "glsl" p).toJson.depth ≤ 127 := by decide
  refine ⟨hdepth, fun call hcall => ?_⟩
  obtain ⟨_, -, -, -, hvalid⟩ := (reduce_legible r p () hdepth).1 call hcall
  exact hvalid

end Reducer

end ShaderShrink

import ShaderShrink.Job.Basic
import ShaderShrink.Proofs.Program.Coding

/-!
# Jobs survive their encoding

A text for a job or for a pair of jobs, be it compact, pretty or laid out in any other way, is
decoded as that job or pair if it nests no more arrays and objects inside each other than texts may;
otherwise it is refused (`ShaderJob.decode_written`, `ProgramPair.decode_written`). The texts that
the program itself writes are among them.
-/

namespace ShaderShrink

open Json (Reads)
open Json.Fields

namespace ShaderJob

/-- A job is decoded from its encoding. -/
theorem reads_toJson (j : ShaderJob) : Reads ofJson j.toJson j :=
  Json.reads_record (.seq (.seq (.map mk (gives_required rfl (Json.reads_string j.name)))
    (gives_required rfl (Json.reads_string j.language)))
    (gives_required rfl j.program.reads_toJson)) (by simp [Json.depthMembers, Json.depth]) (.refl _)
    (by decide)

/-- The encoding of a job has no integer beyond a word. -/
theorem legible_toJson (j : ShaderJob) : j.toJson.Legible :=
  ⟨trivial, trivial, j.program.legible_toJson, trivial⟩

/-- A text for a job is decoded as the job, unless it nests too deep. -/
theorem decode_written (j : ShaderJob) {text : String} (h : j.toJson.Written text.toList) :
    decode text = if j.toJson.depth ≤ Json.nestingLimit then .ok j else .error .malformed :=
  j.reads_toJson.decode_written j.legible_toJson h

end ShaderJob

namespace ProgramPair

/-- A pair is decoded from its encoding. -/
theorem reads_toJson (p : ProgramPair) : Reads ofJson p.toJson p :=
  Json.reads_record (.seq (.map mk (gives_required rfl p.reference.reads_toJson))
    (gives_required rfl p.variant.reads_toJson)) (by simp [Json.depthMembers]) (.refl _) (by decide)

/-- The encoding of a pair has no integer beyond a word. -/
theorem legible_toJson (p : ProgramPair) : p.toJson.Legible :=
  ⟨p.reference.legible_toJson, p.variant.legible_toJson, trivial⟩

/-- A text for a pair is decoded as the pair, unless it nests too deep. -/
theorem decode_written (p : ProgramPair) {text : String} (h : p.toJson.Written text.toList) :
    decode text = if p.toJson.depth ≤ Json.nestingLimit then .ok p else .error .malformed :=
  p.reads_toJson.decode_written p.legible_toJson h

end ProgramPair

/-- Jobs and pairs of jobs are decoded from their pretty and from their compact text if the text
nests at most 127 arrays and objects inside each other; otherwise decoding fails. -/
theorem job_texts_roundtrip :
    (∀ j : ShaderJob,
      ShaderJob.decode j.encode = (if j.toJson.depth ≤ 127 then .ok j else .error .malformed) ∧
      ShaderJob.decode j.toJson.compact =
        if j.toJson.depth ≤ 127 then .ok j else .error .malformed) ∧
    ∀ p : ProgramPair,
      ProgramPair.decode p.toJson.pretty =
        (if p.toJson.depth ≤ 127 then .ok p else .error .malformed) ∧
      ProgramPair.decode p.toJson.compact =
        if p.toJson.depth ≤ 127 then .ok p else .error .malformed :=
  ⟨fun j => ⟨j.decode_written (Json.written_pretty _), j.decode_written (Json.written_compact _)⟩,
    fun p => ⟨p.decode_written (Json.written_pretty _), p.decode_written (Json.written_compact _)⟩⟩

end ShaderShrink

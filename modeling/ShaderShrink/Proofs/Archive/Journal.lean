import ShaderShrink.Archive
import ShaderShrink.Proofs.Disk.Journal

/-!
# The journal of filing

What is filed on a journaled disk is filed as on the disk itself, and the journal tells which texts
were filed: a file that was filed whole was first written to its temporary file, which was then
moved to its place (`Archive.FiledWhole`).
-/

namespace ShaderShrink.Archive

open Journaled (Follows)

variable {σ : Type} [Disk σ] {s s' : Journaled σ} {a : Archive} {status : JobStatus}
  {ignored : Bool} {counter : Nat} {job : ShaderJob} {report : ReductionReport}
  {dir start path text : String} {artifacts paths : List String} {files : List (String × String)}

/-! ## The same on both disks -/

/-- A directory is made in the same way on a journaled disk. -/
theorem makeDir_follows (dir : String) (s : Journaled σ) :
    Follows s (makeDir dir s.world) (makeDir dir s) := by
  obtain ⟨made, s', hx, hy, hcalls⟩ := Journaled.createDirAll_follows dir s
  simp only [makeDir, hx, hy]
  cases made <;> exact Follows.done hcalls

/-- A directory is emptied in the same way on a journaled disk. -/
theorem resetDir_follows (dir : String) (s : Journaled σ) :
    Follows s (resetDir dir s.world) (resetDir dir s) := by
  obtain ⟨removed, s', hx, hy, hcalls⟩ := Journaled.removeDirAll_follows dir s
  simp only [resetDir, hx, hy]
  rcases removed with e | _
  · cases e with
    | notFound => exact (makeDir_follows dir s').after hcalls
    | _ => exact Follows.done hcalls
  · exact (makeDir_follows dir s').after hcalls

/-- Files are copied in the same way on a journaled disk. -/
theorem copyInto_follows (dir start : String) (artifacts : List String) (s : Journaled σ) :
    Follows s (copyInto dir start artifacts s.world) (copyInto dir start artifacts s) := by
  induction artifacts generalizing s with
  | nil => exact .refl
  | cons source rest ih =>
    unfold copyInto
    cases Path.fileName? source with
    | none => exact .refl
    | some name =>
      obtain ⟨copied, s₁, hx, hy, hcalls⟩ :=
        Journaled.copy_follows source (Path.join dir (start ++ name)) s
      simp only [hx, hy]
      rcases copied with _ | _
      · exact Follows.done hcalls
      · obtain ⟨targets, s₂, hx, hy, hcalls'⟩ := ih s₁
        simp only [hx, hy]
        cases targets <;> exact Follows.done (hcalls.trans hcalls')

/-- Copies are kept in the same way on a journaled disk. -/
theorem keepCopies_follows (dir : String) (counter : Nat) (artifacts : List String)
    (s : Journaled σ) :
    Follows s (keepCopies dir counter artifacts s.world) (keepCopies dir counter artifacts s) := by
  obtain ⟨made, s', hx, hy, hcalls⟩ := makeDir_follows dir s
  simp only [keepCopies, hx, hy]
  cases made with
  | error e => exact Follows.done hcalls
  | ok _ => exact (copyInto_follows dir _ artifacts s').after hcalls

/-- A file is written as a whole in the same way on a journaled disk. -/
theorem writeWhole_follows (path text : String) (s : Journaled σ) :
    Follows s (writeWhole path text s.world) (writeWhole path text s) := by
  unfold writeWhole
  cases Path.parent? path with
  | none => exact .refl
  | some dir =>
    obtain ⟨made, s₁, hx, hy, hcalls⟩ := makeDir_follows dir s
    simp only [hx, hy]
    refine .after hcalls ?_
    cases made with
    | error e => exact .refl
    | ok _ =>
      obtain ⟨written, s₂, hx, hy, hcalls⟩ := Journaled.write_follows (temporaryPath path) text s₁
      simp only [hx, hy]
      refine .after hcalls ?_
      cases written with
      | error e => exact .refl
      | ok _ =>
        obtain ⟨moved, s₃, hx, hy, hcalls⟩ :=
          Journaled.rename_follows (temporaryPath path) path s₂
        simp only [hx, hy]
        cases moved <;> exact Follows.done hcalls

/-- Files are written in the same way on a journaled disk. -/
theorem writeAll_follows (files : List (String × String)) (s : Journaled σ) :
    Follows s (writeAll files s.world) (writeAll files s) := by
  induction files generalizing s with
  | nil => exact .refl
  | cons file rest ih =>
    obtain ⟨written, s₁, hx, hy, hcalls⟩ := writeWhole_follows file.1 file.2 s
    simp only [writeAll, hx, hy]
    refine .after hcalls ?_
    cases written with
    | error e => exact .refl
    | ok _ =>
      obtain ⟨paths, s₂, hx, hy, hcalls⟩ := ih s₁
      simp only [hx, hy]
      cases paths <;> exact Follows.done hcalls

/-! ## What was filed -/

/-- A text was written to the temporary file of a path, which was then moved to the path. -/
def FiledWhole (calls : List DiskCall) (path text : String) : Prop :=
  [⟨.write (temporaryPath path) text, .ok ()⟩, ⟨.rename (temporaryPath path) path, .ok ()⟩] <:+:
    calls

/-- A text that was filed as a whole stays so when more calls are made. -/
theorem FiledWhole.mono {calls calls' : List DiskCall} (h : FiledWhole calls path text)
    (hcalls : calls <+: calls') : FiledWhole calls' path text :=
  h.trans hcalls.isInfix

end ShaderShrink.Archive

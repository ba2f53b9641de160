import ShaderShrink.Disk.Basic

/-!
# Journals

A disk does not tell what was done with it. `Journaled σ` is a disk that writes its calls down and
is the disk `σ` otherwise. What is done with a journaled disk follows what is done with the disk
itself (`Journaled.Follows`): it has the same result and the same effect, and adds to the journal.
-/

namespace ShaderShrink

/-- An operation on files. -/
inductive DiskOperation where
  | createDirAll (path : String)
  | removeDirAll (path : String)
  | write (path text : String)
  | copy (source target : String)
  | rename (source target : String)
  deriving DecidableEq, Repr

/-- An operation that was asked for, and how it ended. -/
structure DiskCall where
  operation : DiskOperation
  result : Except DiskError Unit
  deriving Repr

/-- A disk with the calls so far, the last one at the end. -/
structure Journaled (σ : Type) where
  world : σ
  calls : List DiskCall

namespace Journaled

variable {σ α : Type} {s s' : Journaled σ} {x : α × σ} {y : α × Journaled σ}

/-- Does an operation and writes it down. -/
def perform (operation : DiskOperation) (act : σ → Except DiskError Unit × σ) (s : Journaled σ) :
    Except DiskError Unit × Journaled σ :=
  let (result, world) := act s.world
  (result, ⟨world, s.calls ++ [⟨operation, result⟩]⟩)

instance [Disk σ] : Disk (Journaled σ) where
  createDirAll path := perform (.createDirAll path) (Disk.createDirAll path)
  removeDirAll path := perform (.removeDirAll path) (Disk.removeDirAll path)
  write path text := perform (.write path text) (Disk.write path text)
  copy source target := perform (.copy source target) (Disk.copy source target)
  rename source target := perform (.rename source target) (Disk.rename source target)
  read path s := Disk.read path s.world

/-- A step that is no call of the disk, so that there is nothing to write down. -/
def lift (step : σ → α × σ) (s : Journaled σ) : α × Journaled σ :=
  ((step s.world).1, { s with world := (step s.world).2 })

/-- What was done with the journaled disk `s` gave `y`, where the disk itself gives `x`. -/
def Follows (s : Journaled σ) (x : α × σ) (y : α × Journaled σ) : Prop :=
  ∃ a s', x = (a, s'.world) ∧ y = (a, s') ∧ s.calls <+: s'.calls

/-- A state follows itself, with any result. -/
theorem Follows.refl {a : α} : Follows s (a, s.world) (a, s) :=
  ⟨a, s, rfl, rfl, List.prefix_rfl⟩

/-- What follows from a later state on follows from an earlier one. -/
theorem Follows.after (h : s.calls <+: s'.calls) (hf : Follows s' x y) : Follows s x y := by
  obtain ⟨a, s'', hx, hy, hcalls⟩ := hf
  exact ⟨a, s'', hx, hy, h.trans hcalls⟩

/-- Whatever follows something else made its calls behind those made before. -/
theorem Follows.prefix_calls (h : Follows s x y) : s.calls <+: y.2.calls := by
  obtain ⟨_, _, -, rfl, hcalls⟩ := h
  exact hcalls

/-- A result is given in the state that has been come to. -/
theorem Follows.done {a : α} (h : s.calls <+: s'.calls) :
    Follows s (a, s'.world) (a, s') := .after h .refl

/-- An operation does the same when it is written down. -/
theorem perform_follows {operation : DiskOperation} {act : σ → Except DiskError Unit × σ} :
    Follows s (act s.world) (perform operation act s) :=
  ⟨_, _, rfl, rfl, List.prefix_append _ _⟩

/-- What does not touch the disk does the same, and nothing is written down. -/
theorem lift_follows (step : σ → α × σ) (s : Journaled σ) :
    Follows s (step s.world) (lift step s) :=
  ⟨_, _, rfl, rfl, List.prefix_rfl⟩

/-- What was done is at the end of the journal. -/
theorem calls_of_perform {operation : DiskOperation} {act : σ → Except DiskError Unit × σ}
    {result : Except DiskError Unit} (e : perform operation act s = (result, s')) :
    s'.calls = s.calls ++ [⟨operation, result⟩] := by
  cases e
  rfl

section
variable [Disk σ] (path text source target : String) (s : Journaled σ)

theorem createDirAll_follows :
    Follows s (Disk.createDirAll path s.world) (Disk.createDirAll path s) := perform_follows

theorem removeDirAll_follows :
    Follows s (Disk.removeDirAll path s.world) (Disk.removeDirAll path s) := perform_follows

theorem write_follows :
    Follows s (Disk.write path text s.world) (Disk.write path text s) := perform_follows

theorem copy_follows :
    Follows s (Disk.copy source target s.world) (Disk.copy source target s) := perform_follows

theorem rename_follows :
    Follows s (Disk.rename source target s.world) (Disk.rename source target s) := perform_follows

end

end Journaled

end ShaderShrink

import ShaderShrink.Proofs.Change.Undo

/-!
# Going back and forth

Between looks at its program, an arena goes back and forth: opportunities are tried, and changes
that were made are undone, the last one first. `History.run` does any such steps, and
`History.wellFormed_run` says that they leave the arena well formed, whatever the opportunities are
and in whatever order the steps come.
-/

namespace ShaderShrink

/-- What is done to an arena next. -/
inductive HistoryStep where
  /-- An opportunity is tried. -/
  | attempt (o : Opportunity)
  /-- The last change that was made is undone. -/
  | undo

namespace History

/-- Undoes the last change that was made, if there is one. -/
def undo (h : History) : History :=
  match h.made with
  | [] => h
  | m :: rest =>
    match m.edit.revert h.arena with
    | .ok back => ⟨back, rest⟩
    | .error _ => h

/-- Does one step. -/
def step (h : History) : HistoryStep → History
  | .attempt o => h.attempt o
  | .undo => h.undo

/-- Does some steps one after another. -/
def run (h : History) (steps : List HistoryStep) : History := steps.foldl step h

/-- The arena is well formed, and so is each one that undoing the changes leads to. -/
def Sound (h : History) : Prop := h.Undoable fun _ back => back.WellFormed

variable {h : History}

/-- Undoing a change leads to an arena that is well formed, and from which the changes before it can
be undone. -/
theorem Sound.undo (hs : h.Sound) : h.undo.Sound := by
  obtain ⟨a, made⟩ := h
  cases made with
  | nil => exact hs
  | cons m rest =>
    obtain ⟨back, hrev, -, hback, hrest⟩ := hs.undoes
    rw [History.undo]
    simp only [hrev]
    exact ⟨hback, hrest⟩

/-- A step keeps a history sound. -/
theorem Sound.step (hs : h.Sound) (s : HistoryStep) : (h.step s).Sound := by
  cases s with
  | attempt o =>
    exact hs.attempt (fun _ hb => hb) fun _ _ hb => Change.wellFormed_prepared hb
  | undo => exact hs.undo

/-- Steps keep a history sound. -/
theorem Sound.run (hs : h.Sound) (steps : List HistoryStep) : (h.run steps).Sound := by
  induction steps generalizing h with
  | nil => exact hs
  | cons s rest ih => exact ih (hs.step s)

/-- Whatever is tried and undone in the arena of a program, the arena stays well formed. -/
theorem wellFormed_run (p : Program) (steps : List HistoryStep) :
    (run ⟨Arena.ofProgram p, []⟩ steps).arena.WellFormed := by
  have hs : Sound ⟨Arena.ofProgram p, []⟩ := ⟨Arena.wellFormed_ofProgram p, trivial⟩
  exact (hs.run steps).wellFormed

end History

end ShaderShrink

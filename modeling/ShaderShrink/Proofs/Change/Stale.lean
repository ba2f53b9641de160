import ShaderShrink.Proofs.Arena.Layout
import ShaderShrink.Proofs.Change.Found

/-!
# Changes that were found before others were made

The opportunities of one search may be tried in any order, some of them more than once, and each of
them sees what the others have left. `Change.apply_of_stale` says that the precondition of a change
is all that has to be looked at: if it holds, the change is made, and if not, nothing happens.

The invariant of such a run is that the arena is well formed and has evolved from the one that was
searched, so that everything that was found still suits it (`Change.wellFormed_tryAll`).
-/

namespace ShaderShrink

open Arena

namespace Change

/-- Tries some opportunities one after another, without looking for new ones. -/
def tryAll (a : Arena) (os : List Opportunity) : Arena :=
  os.foldl (fun a o => (o.change.apply a).2) a

section
variable {a b : Arena} {c : Change} {os : List Opportunity}

/-- A change whose precondition does not hold is refused, and the arena stays as it is. -/
theorem apply_of_not_holds (h : c.holds a = false) :
    c.apply a = (.error (.preconditionViolated (c.describe a)), a) := by
  rw [apply.eq_def, h]
  rfl

/-- A change that suits a well-formed arena leaves it well formed, whether it is made or not. -/
theorem wellFormed_try (h : a.WellFormed) (hs : c.Suits a) :
    (c.apply a).2.WellFormed ∧ a.Evolves (c.apply a).2 := by
  cases hh : c.holds a with
  | true =>
    obtain ⟨he, s⟩ := shrinks_of_holds h hs hh
    rw [he]
    exact ⟨s.wellFormed h, s.makes.evolves h⟩
  | false =>
    rw [apply_of_not_holds hh]
    exact ⟨h, .refl⟩

/-- Trying changes that suit a well-formed arena leaves it well formed. -/
theorem wellFormed_tryAll (h : a.WellFormed) (hs : ∀ o ∈ os, o.change.Suits a) :
    (tryAll a os).WellFormed ∧ a.Evolves (tryAll a os) := by
  induction os generalizing a with
  | nil => exact ⟨h, .refl⟩
  | cons o rest ih =>
    obtain ⟨hw, he⟩ := wellFormed_try h (hs o List.mem_cons_self)
    have hs' : ∀ x ∈ rest, x.change.Suits (o.change.apply a).2 := by
      intro x hx
      exact (hs x (List.mem_cons_of_mem _ hx)).mono he
    obtain ⟨hw', he'⟩ := ih hw hs'
    exact ⟨hw', he.trans he'⟩

end

/-- Opportunities of one search are tried one after another. Then a further one of them is made
exactly if its precondition holds: it leaves fewer live nodes, which are those of a program. If the
precondition does not hold, the change is refused and the arena stays as it is. -/
theorem apply_of_stale (config : FinderConfig) (p : Program) (os : List Opportunity)
    (o : Opportunity) (h : ∀ x ∈ o :: os, x ∈ config.find (ofProgram p)) :
    (o.change.holds (tryAll (ofProgram p) os) = true →
      ∃ edit after, o.change.apply (tryAll (ofProgram p) os) = (.ok edit, after) ∧
        after.liveCount < (tryAll (ofProgram p) os).liveCount ∧
        ∃ q, after.toProgram = .ok q) ∧
    (o.change.holds (tryAll (ofProgram p) os) = false →
      o.change.apply (tryAll (ofProgram p) os) =
        (.error (.preconditionViolated (o.change.describe (tryAll (ofProgram p) os))),
          tryAll (ofProgram p) os)) := by
  have hp := wellFormed_ofProgram p
  have hsuits : ∀ x ∈ o :: os, x.change.Suits (ofProgram p) := by
    intro x hx
    exact (FinderConfig.found_of_mem_find hp (h x hx)).1
  obtain ⟨hw, he⟩ := wellFormed_tryAll hp fun x hx => hsuits x (List.mem_cons_of_mem _ hx)
  have hs := (hsuits o List.mem_cons_self).mono he
  refine ⟨?_, apply_of_not_holds⟩
  intro hh
  obtain ⟨happly, s⟩ := shrinks_of_holds hw hs hh
  obtain ⟨q, hq, -⟩ := (s.wellFormed hw).exists_toProgram
  exact ⟨_, _, happly, s.liveCount_lt hw, q, hq⟩

/-- In `int x = -y;`, the declaration is removed and then its expression is to be simplified, and
the other way round. -/
theorem apply_of_stale_negation :
    let p : Program := ⟨[.global "int" "x" (some (.unary .neg (.ident "y")))]⟩
    let removal : Opportunity := ⟨.removeDeclaration 0 1, 1⟩
    let operand : Opportunity := ⟨.simplifyExpr 1 2 (.operand 3), 2⟩
    (∃ text, operand.change.apply (tryAll (ofProgram p) [removal]) =
      (.error (.preconditionViolated text), tryAll (ofProgram p) [removal])) ∧
    ∃ edit after, removal.change.apply (tryAll (ofProgram p) [operand]) = (.ok edit, after) ∧
      after.liveCount < (tryAll (ofProgram p) [operand]).liveCount := by
  intro p removal operand
  have hfind (x : Opportunity) (hx : x ∈ [operand, removal]) :
      x ∈ FinderConfig.default.find (ofProgram p) := by
    rw [FinderConfig.find, List.mem_mergeSort]
    revert x
    decide
  constructor
  · have h := (apply_of_stale .default p [removal] operand hfind).2
    exact ⟨_, h (by decide)⟩
  · have h := (apply_of_stale .default p [operand] removal fun x hx =>
      hfind x (by simpa [or_comm] using hx)).1
    obtain ⟨edit, after, he, hlt, -⟩ := h (by decide)
    exact ⟨edit, after, he, hlt⟩

end Change

end ShaderShrink

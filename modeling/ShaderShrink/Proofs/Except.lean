import Mathlib.Data.List.Forall2

/-!
# Computations that succeed

Edits and readers of arenas are computations in `Except` that check one thing after another. A
sequence succeeds if all its steps do (`Except.bind_eq_ok_iff`), a guard if its condition fails
(`Except.guard_eq_ok_iff`), and a walk through a list if it succeeds at every member
(`Except.mapM_eq_ok`).
-/

namespace Except

variable {ε α β : Type}

@[simp] theorem ok_bind {v : α} {f : α → Except ε β} : (Except.ok v >>= f) = f v := rfl

/-- A sequence succeeds exactly if its first step does, and the rest does from there. -/
theorem bind_eq_ok_iff {x : Except ε α} {f : α → Except ε β} {r : β} :
    (x >>= f) = .ok r ↔ ∃ v, x = .ok v ∧ f v = .ok r := by
  cases x with
  | error e => exact ⟨nofun, fun ⟨_, h, _⟩ => nomatch h⟩
  | ok v =>
    constructor
    · intro h
      exact ⟨v, rfl, h⟩
    · rintro ⟨_, ⟨⟩, h⟩
      exact h

/-- A guarded computation succeeds exactly if the guard lets it through and it succeeds. -/
theorem guard_eq_ok_iff {c : Prop} [Decidable c] {e : ε} {f : α → Except ε β}
    {x : Except ε β} {r : β} :
    (if c then throw e >>= f else x) = .ok r ↔ ¬ c ∧ x = .ok r := by
  split
  · next h => exact ⟨nofun, fun h' => absurd h h'.1⟩
  · next h => exact ⟨fun h' => ⟨h, h'⟩, fun h' => h'.2⟩

/-- A last guard succeeds exactly if its condition fails. -/
theorem guard_eq_ok_unit_iff {c : Prop} [Decidable c] {e : ε} {u : Unit} :
    (if c then throw e else pure () : Except ε Unit) = .ok u ↔ ¬ c := by
  split
  · next h => exact ⟨nofun, fun h' => absurd h h'⟩
  · next h => exact ⟨fun _ => h, fun _ => rfl⟩

/-- A walk through a list succeeds if it does at every member. -/
theorem mapM_eq_ok {f : α → Except ε β} {xs : List α} {ys : List β}
    (h : List.Forall₂ (fun x y => f x = .ok y) xs ys) : xs.mapM f = .ok ys := by
  induction h with
  | nil => rfl
  | cons hxy _ ih => rw [List.mapM_cons, hxy, ok_bind, ih, ok_bind]; rfl

end Except

import ShaderShrink.Proofs.Change.Stale

/-!
# Undoing changes

The edit that a change gives is undone by the opposite edit, which is checked like any other. So
that it is accepted depends on what the arena is like by then. `History.undoes_attemptAll` says that
it is accepted always, if the changes that were made are undone in the opposite order: each time the
arena before the change is back, with nothing but unattached literals behind it
(`Arena.Restores`). The changes may have been found or be about any numbers whatsoever.

What makes this go through a whole history is that edits do not see literals behind the arena
(`Edit.revert_prepared`), so what could be undone before a literal was made still can be.
-/

namespace ShaderShrink

open Arena

/-! ## Changes of any kind -/

namespace Change

/-- What a try of a change can come to in an arena: it is made, its precondition fails, or the
arena refuses the edit, in which case a literal stays behind. -/
inductive Applies (a : Arena) (c : Change) : Except ReductionError Edit × Arena → Prop
  | made {edit : Edit} {after : Arena} :
    a.Makes edit (c.prepared a) after → Applies a c (.ok edit, after)
  | unmet {e : ReductionError} : Applies a c (.error e, a)
  | refused {e : ReductionError} : Applies a c (.error e, c.prepared a)

section
variable {a : Arena} {c : Change} {parent target inner child : Nat}

/-- A replacement by a child or by a new leaf fits, or it is refused. -/
theorem replace_cases (h : a.WellFormed) (hp : a.Live parent) (ht : target ∈ a.childrenOf parent)
    (hi : inner ∈ a.childrenOf target ∨ a.Spare inner ∧ target < inner) :
    (∃ e, replace a parent target inner = (.error e, a)) ∨
      a.Fitting parent target inner ∧ replace a parent target inner =
        (.ok (.replaced parent target inner), a.graft parent target inner) := by
  cases he : a.replaceChild parent target inner with
  | error e =>
    rw [replace, he]
    exact .inl ⟨_, rfl⟩
  | ok a' =>
    obtain ⟨m, -⟩ := replaceChild_eq_ok_iff.1 he
    have f : a.Fitting parent target inner := ⟨hp, ht, m.slot, hi⟩
    exact .inr ⟨f, replace_eq h f⟩

/-- Putting a child of a node in its place can be done and undone. -/
theorem applies_hoist (h : a.WellFormed) (hc : c.prepared a = a)
    (ht : a.hasChild parent target = true) (hi : a.hasChild target inner = true) :
    c.Applies a (replace a parent target inner) := by
  obtain ⟨hp, ht⟩ := h.hasChild_iff.1 ht
  obtain ⟨-, hi⟩ := h.hasChild_iff.1 hi
  rcases replace_cases h hp ht (.inl hi) with ⟨e, he⟩ | ⟨f, he⟩
  · rw [he]
    exact .unmet
  · rw [he]
    exact .made (hc.symm ▸ .hoist f hi)

/-- Removing a child can be done and undone. -/
theorem applies_removal (h : a.WellFormed) (hc : c.prepared a = a)
    (hh : a.hasChild parent child = true) : c.Applies a (remove a parent child) := by
  obtain ⟨hp, hm⟩ := h.hasChild_iff.1 hh
  rw [remove]
  split
  · next a' index he =>
    obtain ⟨hv, -, rfl, rfl⟩ := removeChild_eq_ok_iff.1 he
    exact .made (hc.symm ▸ .removal hp hm hv)
  · exact .unmet

/-- Putting a literal in the place of a node can be done and undone. -/
theorem applies_literal (h : a.WellFormed) (value : LiteralValue)
    (hh : a.hasChild parent target = true) :
    Applies a (.simplifyExpr parent target (.literal value))
      (replace (a.alloc value.toPayload).1 parent target a.size) := by
  obtain ⟨hp, ht⟩ := h.hasChild_iff.1 hh
  have hl := value.isLiteral_toPayload
  have ha := h.alloc (Payload.admits_of_isLiteral hl)
  have ht' : target ∈ (a.alloc value.toPayload).1.childrenOf parent := by rwa [childrenOf_alloc]
  rcases replace_cases ha (live_alloc.2 hp) ht' (.inr ⟨h.spare_alloc, h.child_lt ht⟩) with
    ⟨e, he⟩ | ⟨f, he⟩
  · rw [he]
    exact .refused
  · rw [he]
    exact .made (.literal hl f)

/-- In a well-formed arena, a try of any change comes to one of three ends. -/
theorem applies_apply (h : a.WellFormed) (c : Change) : c.Applies a (c.apply a) := by
  cases hh : c.holds a with
  | false =>
    rw [apply_of_not_holds hh]
    exact .unmet
  | true =>
    rw [apply.eq_def, if_pos hh]
    cases c with
    | simplifyExpr _ _ candidate =>
      cases candidate with
      | operand =>
        obtain ⟨ht, hi⟩ := Bool.and_eq_true_iff.1 hh
        exact applies_hoist h rfl ht hi
      | literal value => exact applies_literal h value hh
    | collapseStatement =>
      obtain ⟨ht, hi⟩ := Bool.and_eq_true_iff.1 hh
      exact applies_hoist h rfl ht hi
    | removeStatement | removeDeclaration => exact applies_removal h rfl hh

/-- A change makes no literal in any arena, or the same one in all of them. -/
theorem prepared_cases (c : Change) : (∀ a, c.prepared a = a) ∨
    ∃ value : LiteralValue, ∀ a, c.prepared a = (a.alloc value.toPayload).1 := by
  cases c with
  | simplifyExpr _ _ candidate =>
    cases candidate with
    | operand => exact .inl fun _ => rfl
    | literal value => exact .inr ⟨value, fun _ => rfl⟩
  | removeStatement | removeDeclaration | collapseStatement => exact .inl fun _ => rfl

/-- The literal that a change asks for keeps the arena well formed. -/
theorem wellFormed_prepared (h : a.WellFormed) : (c.prepared a).WellFormed := by
  rcases c.prepared_cases with he | ⟨value, he⟩
  · rw [he]
    exact h
  · rw [he]
    exact h.alloc (Payload.admits_of_isLiteral value.isLiteral_toPayload)

/-- A try of any change leaves a well-formed arena well formed. -/
theorem Applies.wellFormed {result : Except ReductionError Edit × Arena} (s : c.Applies a result)
    (h : a.WellFormed) : result.2.WellFormed := by
  cases s with
  | made s => exact s.wellFormed h
  | unmet => exact h
  | refused => exact wellFormed_prepared h

/-- Whether a change asks for a literal. -/
def usesLiteral : Change → Bool
  | .simplifyExpr _ _ (.literal _) => true
  | _ => false

/-- A change that asks for no literal adds none. -/
theorem prepared_of_not_usesLiteral (h : c.usesLiteral = false) : c.prepared a = a := by
  unfold prepared
  split
  · cases h
  · rfl

end

end Change

/-! ## Undoing one edit -/

namespace Edit

variable {a back : Arena} {edit : Edit}

/-- Undoing an edit touches no payload. -/
theorem data?_revert (h : edit.revert a = .ok back) (x : NodeId) : back.data? x = a.data? x := by
  cases edit with
  | replaced parent target replacement =>
    obtain ⟨-, rfl⟩ := replaceChild_eq_ok_iff.1 h
    rw [data?_adoptChildren, data?_graft]
  | removed parent child index =>
    obtain ⟨-, rfl⟩ := insertChild_eq_ok_iff.1 h
    rw [data?_plant]

/-- An edit is undone in the same way if a node was made before. -/
theorem revert_alloc {data : Payload} (h : edit.revert a = .ok back) :
    edit.revert (a.alloc data).1 = .ok (back.alloc data).1 := by
  cases edit with
  | replaced parent target replacement => exact replaceChild_alloc h
  | removed parent child index => exact insertChild_alloc h

/-- An edit is undone in the same way if the literal of a change was made before. -/
theorem revert_prepared (c : Change) (h : edit.revert a = .ok back) :
    edit.revert (c.prepared a) = .ok (c.prepared back) := by
  rcases c.prepared_cases with he | ⟨value, he⟩
  · rw [he, he]
    exact h
  · rw [he, he]
    exact revert_alloc h

end Edit

/-! ## What is left behind -/

/-- In the arena `a`, all nodes of `b` are back, and behind them are unattached literals that no
node lists. -/
structure Arena.Restores (b a : Arena) : Prop where
  size_le : b.size ≤ a.size
  get? {x : NodeId} : x < b.size → a.get? x = b.get? x
  literal {x : NodeId} : b.size ≤ x → x < a.size →
    ∃ value : LiteralValue, a.get? x = some ⟨value.toPayload, [], none⟩
  not_listed {x y : NodeId} : b.size ≤ x → x ∉ a.childrenOf y

namespace Arena

variable {a b : Arena} {c : Change}

/-- An arena restores itself. -/
theorem Restores.refl (h : a.WellFormed) : a.Restores a where
  size_le := Nat.le_refl _
  get? _ := rfl
  literal hle hlt := absurd hlt (Nat.not_lt.2 hle)
  not_listed hle hm := absurd (h.child_lt hm) (Nat.not_lt.2 hle)

/-- An unattached literal may be added. -/
theorem Restores.alloc (h : b.Restores a) (value : LiteralValue) :
    b.Restores (a.alloc value.toPayload).1 where
  size_le := by
    rw [size_alloc]
    exact Nat.le_succ_of_le h.size_le
  get? hx := by rw [get?_alloc_of_lt (Nat.lt_of_lt_of_le hx h.size_le), h.get? hx]
  literal {x} hle hlt := by
    rw [size_alloc, Nat.lt_succ_iff_lt_or_eq] at hlt
    rcases hlt with hlt | rfl
    · rw [get?_alloc_of_lt hlt]
      exact h.literal hle hlt
    · exact ⟨value, get?_alloc_size⟩
  not_listed hle := by
    rw [childrenOf_alloc]
    exact h.not_listed hle

/-- A literal that is made for a change stays behind. -/
theorem Restores.prepared (h : b.Restores a) : b.Restores (c.prepared a) := by
  rcases c.prepared_cases with he | ⟨value, he⟩
  · rw [he]
    exact h
  · rw [he]
    exact h.alloc value

end Arena

/-! ## Undoing a history -/

/-- A change that was made: the arena before it, and what it did. -/
structure MadeChange where
  before : Arena
  edit : Edit

/-- An arena, and the changes that were made on the way to it, the last one first. -/
structure History where
  arena : Arena
  made : List MadeChange

/-- Undoing some changes, the last one first, works. Each time, no node is dropped or gets another
payload, and the arena before the change and the one that is left are related as `R` says. -/
def Undoes (R : Arena → Arena → Prop) : List MadeChange → Arena → Prop
  | [], _ => True
  | m :: rest, a => ∃ back, m.edit.revert a = .ok back ∧ (∀ x, back.data? x = a.data? x) ∧
      R m.before back ∧ Undoes R rest back

namespace History

/-- Tries an opportunity. -/
def attempt (h : History) (o : Opportunity) : History :=
  match o.change.apply h.arena with
  | (.ok edit, a) => ⟨a, ⟨h.arena, edit⟩ :: h.made⟩
  | (.error _, a) => ⟨a, h.made⟩

/-- Tries some opportunities one after another. -/
def attemptAll (h : History) (os : List Opportunity) : History := os.foldl attempt h

/-- The arena is well formed, and everything that was made can be undone. -/
structure Undoable (R : Arena → Arena → Prop) (h : History) : Prop where
  wellFormed : h.arena.WellFormed
  undoes : Undoes R h.made h.arena

section
variable {R : Arena → Arena → Prop} {a : Arena} {c : Change} {made : List MadeChange}
  {h : History} {o : Opportunity} {os : List Opportunity}

/-- What could be undone before the literal of a change was made still can be. -/
theorem undoes_prepared (hR : ∀ b x, R b x → R b (c.prepared x)) (hu : Undoes R made a) :
    Undoes R made (c.prepared a) := by
  induction made generalizing a with
  | nil => trivial
  | cons m rest ih =>
    obtain ⟨back, hrev, -, hb, hrest⟩ := hu
    have hrev' := Edit.revert_prepared c hrev
    exact ⟨c.prepared back, hrev', Edit.data?_revert hrev', hR _ _ hb, ih hrest⟩

/-- A try of any opportunity leaves everything undoable. -/
theorem Undoable.attempt (hrefl : ∀ b : Arena, b.WellFormed → R b b)
    (hR : ∀ b x, R b x → R b (o.change.prepared x)) (hu : h.Undoable R) :
    (h.attempt o).Undoable R := by
  have ha := Change.applies_apply hu.wellFormed o.change
  rw [History.attempt]
  generalize o.change.apply h.arena = result at ha
  have hw := ha.wellFormed hu.wellFormed
  cases ha with
  | made s =>
    -- undoing the new change leaves the arena before it, with its literal if it made one
    have hrev := s.revert hu.wellFormed
    exact ⟨hw, _, hrev, Edit.data?_revert hrev, hR _ _ (hrefl _ hu.wellFormed),
      undoes_prepared hR hu.undoes⟩
  | unmet => exact ⟨hw, hu.undoes⟩
  | refused => exact ⟨hw, undoes_prepared hR hu.undoes⟩

/-- Tries of any opportunities leave everything undoable. -/
theorem Undoable.attemptAll (hrefl : ∀ b : Arena, b.WellFormed → R b b)
    (hR : ∀ o ∈ os, ∀ b x, R b x → R b (o.change.prepared x)) (hu : h.Undoable R) :
    (h.attemptAll os).Undoable R := by
  induction os generalizing h with
  | nil => exact hu
  | cons o rest ih =>
    obtain ⟨ho, hrest⟩ := List.forall_mem_cons.1 hR
    exact ih hrest (hu.attempt hrefl ho)

end

/-- Opportunities of any kind are tried one after another in the arena of a program. Then the
changes that were made can be undone, the last one first. Each time the arena before the change is
back, apart from unattached literals behind it; if no opportunity asked for a literal, it is that
arena. -/
theorem undoes_attemptAll (p : Program) (os : List Opportunity) :
    let h := attemptAll ⟨ofProgram p, []⟩ os
    Undoes Restores h.made h.arena ∧
      ((∀ o ∈ os, o.change.usesLiteral = false) → Undoes Eq h.made h.arena) := by
  have hw := wellFormed_ofProgram p
  constructor
  · have hu : Undoable Restores ⟨ofProgram p, []⟩ := ⟨hw, trivial⟩
    exact (hu.attemptAll (fun _ => .refl) fun _ _ _ _ => Restores.prepared).undoes
  · intro hos
    have hu : Undoable Eq ⟨ofProgram p, []⟩ := ⟨hw, trivial⟩
    refine (hu.attemptAll (fun _ _ => rfl) fun o ho b x hb => ?_).undoes
    rw [Change.prepared_of_not_usesLiteral (hos o ho), hb]

end History

end ShaderShrink

import ShaderShrink.Proofs.Disk.Journal

/-!
# Operations that succeed

What a list of operations does to a disk if none of them fails (`Performs`). A journaled disk knows
which operations it was asked for, and those of two stretches of work are those of the first and
then those of the second (`Journaled.Did.trans`). The disk may stand beside a state of another kind,
which operations on files leave alone.
-/

namespace ShaderShrink

variable {σ τ : Type} [Disk σ]

/-- A disk that takes everything and keeps nothing. -/
instance : Disk Unit where
  createDirAll _ s := (.ok (), s)
  removeDirAll _ s := (.ok (), s)
  write _ _ s := (.ok (), s)
  copy _ _ s := (.ok (), s)
  rename _ _ s := (.ok (), s)
  read _ _ := .error .notFound

/-- A disk with something beside it. -/
instance : Disk (σ × τ) where
  createDirAll path s := Prod.map id (·, s.2) (Disk.createDirAll path s.1)
  removeDirAll path s := Prod.map id (·, s.2) (Disk.removeDirAll path s.1)
  write path text s := Prod.map id (·, s.2) (Disk.write path text s.1)
  copy source target s := Prod.map id (·, s.2) (Disk.copy source target s.1)
  rename source target s := Prod.map id (·, s.2) (Disk.rename source target s.1)
  read path s := Disk.read path s.1

/-- A step of what stands beside a disk. -/
def besideDisk {α : Type} (step : τ → α × τ) (s : σ × τ) : α × (σ × τ) :=
  Prod.map id (s.1, ·) (step s.2)

namespace DiskOperation

/-- Does an operation. -/
def act : DiskOperation → σ → Except DiskError Unit × σ
  | .createDirAll path => Disk.createDirAll path
  | .removeDirAll path => Disk.removeDirAll path
  | .write path text => Disk.write path text
  | .copy source target => Disk.copy source target
  | .rename source target => Disk.rename source target

/-- An operation leaves alone what is beside the disk. -/
theorem act_beside (operation : DiskOperation) (s : σ × τ) :
    operation.act s = Prod.map id (·, s.2) (operation.act s.1) := by
  cases operation <;> rfl

/-- An operation on a journaled disk is written down with its result. -/
theorem act_journaled (operation : DiskOperation) (s : Journaled σ) :
    operation.act s = Journaled.perform operation operation.act s := by
  cases operation <;> rfl

/-- The path of the file that an operation writes. -/
def written? : DiskOperation → Option String
  | .createDirAll _ | .removeDirAll _ => none
  | .write path _ => some path
  | .copy _ target | .rename _ target => some target

/-- Only the removal of a directory may find that there is nothing to do. -/
def removes : DiskOperation → Bool
  | .removeDirAll _ => true
  | .createDirAll _ | .write _ _ | .copy _ _ | .rename _ _ => false

end DiskOperation

/-- The operation did not fail. A directory that is to be removed may be missing already. -/
def DiskCall.succeeded (call : DiskCall) : Bool :=
  match call.result, call.operation with
  | .ok _, _ => true
  | .error .notFound, .removeDirAll _ => true
  | .error _, _ => false

/-- A call that succeeded gave no error, unless it was to remove a directory that was not there. -/
theorem DiskCall.eq_of_succeeded {operation : DiskOperation} {result : Except DiskError Unit}
    (h : (⟨operation, result⟩ : DiskCall).succeeded) :
    result = .ok () ∨ result = .error .notFound ∧ ∃ path, operation = .removeDirAll path := by
  cases result with
  | ok _ => exact .inl rfl
  | error cause =>
    cases operation <;> cases cause <;> first | exact .inr ⟨rfl, _, rfl⟩ | exact nomatch h

/-- Only the removal of a directory can end in an error without having failed. -/
theorem DiskCall.ok_of_succeeded {operation : DiskOperation} {result : Except DiskError Unit}
    (h : (⟨operation, result⟩ : DiskCall).succeeded)
    (hkind : operation.removes = false) : result = .ok () := by
  rcases eq_of_succeeded h with hok | ⟨-, path, rfl⟩
  · exact hok
  · cases hkind

/-- Operations lead from one state of a disk to another, and none of them fails. -/
inductive Performs : List DiskOperation → σ → σ → Prop
  | nil {s : σ} : Performs [] s s
  | cons {operation : DiskOperation} {operations : List DiskOperation}
      {result : Except DiskError Unit} {s s₁ s' : σ} : operation.act s = (result, s₁) →
      (⟨operation, result⟩ : DiskCall).succeeded → Performs operations s₁ s' →
      Performs (operation :: operations) s s'

section
variable {operation : DiskOperation} {operations more : List DiskOperation} {s s' s'' : σ}

/-- Without operations nothing changes. -/
theorem performs_nil : Performs [] s s' ↔ s' = s := by
  constructor
  · rintro ⟨⟩
    rfl
  · rintro rfl
    exact .nil

/-- The first operation succeeds, and the others do behind it. -/
theorem performs_cons : Performs (operation :: operations) s s' ↔
    ∃ result s₁, operation.act s = (result, s₁) ∧
      (⟨operation, result⟩ : DiskCall).succeeded ∧ Performs operations s₁ s' := by
  constructor
  · rintro (_ | ⟨hact, hsucceeded, hrest⟩)
    exact ⟨_, _, hact, hsucceeded, hrest⟩
  · rintro ⟨result, s₁, hact, hsucceeded, hrest⟩
    exact .cons hact hsucceeded hrest

/-- Operations are performed one after another. -/
theorem performs_append : Performs (operations ++ more) s s' ↔
    ∃ s₁, Performs operations s s₁ ∧ Performs more s₁ s' := by
  induction operations generalizing s with
  | nil => simp [performs_nil]
  | cons operation operations ih =>
    rw [List.cons_append, performs_cons]
    constructor
    · rintro ⟨result, s₁, hact, hsucceeded, hrest⟩
      obtain ⟨s₂, hfirst, hmore⟩ := ih.1 hrest
      exact ⟨s₂, .cons hact hsucceeded hfirst, hmore⟩
    · rintro ⟨s₂, hfirst, hmore⟩
      obtain ⟨result, s₁, hact, hsucceeded, hrest⟩ := performs_cons.1 hfirst
      exact ⟨result, s₁, hact, hsucceeded, ih.2 ⟨s₂, hrest, hmore⟩⟩

end

namespace Journaled

/-- None of the calls so far failed. -/
def Succeeded {α : Type} (s : Journaled α) : Prop := ∀ call ∈ s.calls, call.succeeded

/-- The operations so far. -/
def operations {α : Type} (s : Journaled α) : List DiskOperation := s.calls.map DiskCall.operation

/-- If no call has failed, none had failed before. -/
theorem Succeeded.of_prefix {α : Type} {s s' : Journaled α} (h : s'.Succeeded)
    (hcalls : s.calls <+: s'.calls) : s.Succeeded :=
  fun call hmem => h call (hcalls.subset hmem)

/-- Between two states the disk was asked for some operations, none of which failed; beside it there
is `x` in the end. -/
structure Did (operations : List DiskOperation) (x : τ) (s s' : Journaled (σ × τ)) : Prop where
  operations_eq : s'.operations = s.operations ++ operations
  performs : Performs operations s.world.1 s'.world.1
  beside_eq : s'.world.2 = x

section
variable {operations more : List DiskOperation} {x y : τ}
  {s s' s'' : Journaled (σ × τ)} {result : Except DiskError Unit}

/-- Nothing was done. -/
theorem Did.refl : Did [] s.world.2 s s := ⟨(List.append_nil _).symm, .nil, rfl⟩

/-- What was done in two steps was done. -/
theorem Did.trans (h : Did operations x s s') (h' : Did more y s' s'') :
    Did (operations ++ more) y s s'' where
  operations_eq := by rw [h'.operations_eq, h.operations_eq, List.append_assoc]
  performs := performs_append.2 ⟨_, h.performs, h'.performs⟩
  beside_eq := h'.beside_eq

/-- A step of what stands beside the disk does nothing to files. -/
theorem exists_lift_eq {α : Type} {step : τ → α × τ} {a : α} (h : step s.world.2 = (a, x)) :
    ∃ s', lift (besideDisk step) s = (a, s') ∧ s'.calls = s.calls ∧ Did [] x s s' := by
  refine ⟨⟨(s.world.1, x), s.calls⟩, ?_, rfl, (List.append_nil _).symm, .nil, rfl⟩
  rw [lift, besideDisk, h]
  rfl

/-- An operation behind which no call has failed. -/
theorem did_of_act (operation : DiskOperation) (e : operation.act s = (result, s'))
    (hs' : s'.Succeeded) :
    (⟨operation, result⟩ : DiskCall).succeeded ∧ Did [operation] s.world.2 s s' := by
  rw [DiskOperation.act_journaled] at e
  have hcalls := calls_of_perform e
  have hsucceeded : (⟨operation, result⟩ : DiskCall).succeeded := by
    refine hs' _ ?_
    rw [hcalls]
    exact List.mem_append_right _ (List.mem_singleton_self _)
  have hact : operation.act s.world = (result, s'.world) := by
    rw [perform] at e
    cases e
    rfl
  rw [DiskOperation.act_beside] at hact
  obtain ⟨hresult, hworld⟩ := Prod.mk.inj hact
  refine ⟨hsucceeded, ?_, .cons (Prod.ext hresult ?_) hsucceeded .nil, ?_⟩
  · rw [operations, hcalls, List.map_append, ← operations]
    rfl
  · exact congrArg Prod.fst hworld
  · exact (congrArg Prod.snd hworld).symm

/-- If no call has failed, an operation that removes nothing was done and gave no error. -/
theorem did_ok_of_act (operation : DiskOperation) (e : operation.act s = (result, s'))
    (hs' : s'.Succeeded) (hkind : operation.removes = false) :
    result = .ok () ∧ Did [operation] s.world.2 s s' := by
  obtain ⟨hsucceeded, hdid⟩ := did_of_act operation e hs'
  exact ⟨DiskCall.ok_of_succeeded hsucceeded hkind, hdid⟩

end

end Journaled

end ShaderShrink

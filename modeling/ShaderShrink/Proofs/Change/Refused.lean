import ShaderShrink.Proofs.Arena.Indexed
import ShaderShrink.Proofs.Change.Suits

/-!
# Operations that are refused

`ArenaOperation` is what can be done to an arena from outside: the edits, with whatever numbers they
are given, changes, whether they were found or made up, and edits that are undone, whether they were
made or not. Step by step, none of them uses a number without a node on an arena that such
operations lead to from a program, and one that is refused leaves the arena as it is, with one
exception (`ArenaOperation.run_refused`).

The exception is a change that puts a literal in the place of something that is not an expression.
The node of the literal is made before the place is looked at, and it stays behind when the place
refuses it (`ArenaOperation.not_run_refused`). No such change is ever found in a program, but one
that is made up may be of this kind.
-/

namespace ShaderShrink

open Arena

/-! ## Changes step by step -/

namespace Stepwise

/-- Replaces a child. -/
def replace (parent target replacement : NodeId) : Stepwise ReductionError Edit := do
  mapError .structural (replaceChild parent target replacement)
  return .replaced parent target replacement

/-- Removes a child. -/
def remove (parent child : NodeId) : Stepwise ReductionError Edit := do
  let place ← mapError .structural (removeChild parent child)
  return .removed parent child place

/-- Makes a change whose precondition holds. -/
def apply (c : Change) : Stepwise ReductionError Edit := do
  check fun a => if c.holds a then .ok () else .error (.preconditionViolated (c.describe a))
  match c with
  | .simplifyExpr parent target (.operand node) => replace parent target node
  | .simplifyExpr parent target (.literal value) =>
    let node ← alloc value.toPayload
    replace parent target node
  | .removeStatement block statement => remove block statement
  | .removeDeclaration unit declaration => remove unit declaration
  | .collapseStatement parent target inner => replace parent target inner

/-- Undoes an edit. -/
def revert : Edit → Stepwise ArenaError Unit
  | .replaced parent target replacement => replaceChild parent replacement target
  | .removed parent child index => insertChild parent index child

end Stepwise

/-- The outcome of a computation that stays inside the arena. -/
def Outcome.ofExcept {ε α : Type} : Except ε α → Outcome ε α
  | .ok value => .done value
  | .error e => .refused e

namespace Stepwise

variable {a : Arena} {parent target replacement child : NodeId}

/-- Replacing a child stays inside the arena. -/
theorem replace_eq (h : a.InRange) : replace parent target replacement a =
    (.ofExcept (Change.replace a parent target replacement).1,
      (Change.replace a parent target replacement).2) := by
  change andThen (mapError _ _) _ a = _
  rw [andThen, mapError, replaceChild_eq h, Change.replace]
  cases a.replaceChild parent target replacement <;> rfl

/-- Removing a child stays inside the arena. -/
theorem remove_eq : remove parent child a =
    (.ofExcept (Change.remove a parent child).1, (Change.remove a parent child).2) := by
  change andThen (mapError _ _) _ a = _
  rw [andThen, mapError, removeChild_eq, Change.remove]
  cases a.removeChild parent child <;> rfl

/-- A change stays inside the arena. -/
theorem apply_eq (h : a.InRange) (c : Change) :
    apply c a = (.ofExcept (c.apply a).1, (c.apply a).2) := by
  rw [Change.apply.eq_def]
  cases hc : c.holds a with
  | false =>
    change andThen (check _) _ a = _
    rw [andThen, check, hc]
    rfl
  | true =>
    have hcheck : (if c.holds a then Except.ok () else
        Except.error (ReductionError.preconditionViolated (c.describe a))) = .ok () := by
      rw [hc]; rfl
    rw [apply.eq_def, check_bind_of_ok hcheck, if_pos rfl]
    cases c with
    | simplifyExpr parent target candidate =>
      cases candidate with
      | operand node => exact replace_eq h
      | literal value => exact replace_eq h.alloc
    | removeStatement | removeDeclaration => exact remove_eq
    | collapseStatement => exact replace_eq h

/-- Undoing an edit stays inside the arena, and changes nothing if it is refused. -/
theorem revert_eq (h : a.InRange) (edit : Edit) :
    revert edit a = ending a (fun a' => ((), a')) (edit.revert a) := by
  cases edit with
  | replaced => exact replaceChild_eq h
  | removed => exact insertChild_eq h

end Stepwise

/-! ## Operations -/

/-- What is done to an arena from outside. -/
inductive ArenaOperation where
  | alloc (data : Payload)
  | replaceChild (parent target replacement : NodeId)
  | removeChild (parent child : NodeId)
  | insertChild (parent : NodeId) (index : Nat) (child : NodeId)
  | apply (change : Change)
  | revert (edit : Edit)
  deriving DecidableEq, Repr

namespace ArenaOperation

/-- The result of an edit. -/
def settle (a : Arena) : Except ArenaError Arena → Except ReductionError Unit × Arena
  | .ok a' => (.ok (), a')
  | .error e => (.error (.structural e), a)

/-- What comes of an operation: whether it is refused, and the arena behind it. -/
def run (a : Arena) : ArenaOperation → Except ReductionError Unit × Arena
  | .alloc data => (.ok (), (a.alloc data).1)
  | .replaceChild parent target replacement => settle a (a.replaceChild parent target replacement)
  | .removeChild parent child => settle a ((a.removeChild parent child).map Prod.fst)
  | .insertChild parent index child => settle a (a.insertChild parent index child)
  | .apply change => ((change.apply a).1.map fun _ => (), (change.apply a).2)
  | .revert edit => settle a (edit.revert a)

/-- The arena behind some operations. -/
def runAll (a : Arena) (operations : List ArenaOperation) : Arena :=
  operations.foldl (fun a operation => (operation.run a).2) a

/-- An operation step by step. -/
def steps : ArenaOperation → Stepwise ReductionError Unit
  | .alloc data => do let _ ← Stepwise.alloc data
  | .replaceChild parent target replacement =>
    .mapError .structural (.replaceChild parent target replacement)
  | .removeChild parent child => do
    let _ ← Stepwise.mapError .structural (.removeChild parent child)
  | .insertChild parent index child => .mapError .structural (.insertChild parent index child)
  | .apply change => do let _ ← Stepwise.apply change
  | .revert edit => .mapError .structural (.revert edit)

/-- The place of a child may hold an expression. -/
def TakesExpression (a : Arena) (parent child : NodeId) : Prop :=
  (a.data? parent).bind (·.slotKind? ((a.childrenOf parent).idxOf child)) = some .expression

instance (a : Arena) (parent child : NodeId) : Decidable (TakesExpression a parent child) :=
  inferInstanceAs (Decidable (_ = _))

/-- The literal that an operation leaves behind when it is refused. -/
def stray? (a : Arena) : ArenaOperation → Option LiteralValue
  | .apply (.simplifyExpr parent target (.literal value)) =>
    if a.hasChild parent target = true ∧ ¬ TakesExpression a parent target then some value
    else none
  | _ => none

variable {a : Arena} {operation : ArenaOperation}

/-- An operation stays inside the arena. -/
theorem steps_eq (h : a.InRange) (operation : ArenaOperation) :
    operation.steps a = (.ofExcept (operation.run a).1, (operation.run a).2) := by
  cases operation with
  | alloc data => rfl
  | replaceChild parent target replacement =>
    rw [steps, Stepwise.mapError, Stepwise.replaceChild_eq h, run]
    cases a.replaceChild parent target replacement <;> rfl
  | removeChild parent child =>
    change Stepwise.andThen (Stepwise.mapError _ _) _ a = _
    rw [Stepwise.andThen, Stepwise.mapError, Stepwise.removeChild_eq, run]
    cases a.removeChild parent child <;> rfl
  | insertChild parent index child =>
    rw [steps, Stepwise.mapError, Stepwise.insertChild_eq h, run]
    cases a.insertChild parent index child <;> rfl
  | apply change =>
    change Stepwise.andThen (Stepwise.apply change) _ a = _
    rw [Stepwise.andThen, Stepwise.apply_eq h, run]
    rcases change.apply a with ⟨_ | _, a'⟩ <;> rfl
  | revert edit =>
    rw [steps, Stepwise.mapError, Stepwise.revert_eq h, run]
    cases edit.revert a <;> rfl

/-! ## Arenas that operations lead to -/

end ArenaOperation

section
variable {a a' : Arena} {parent target replacement child : NodeId} {index : Nat}

/-- Replacing a child keeps the nodes in range. -/
theorem Arena.InRange.replaceChild (h : a.InRange)
    (e : a.replaceChild parent target replacement = .ok a') : a'.InRange := by
  obtain ⟨m, rfl⟩ := replaceChild_eq_ok_iff.1 e
  exact (h.graft m.parent_lt_size m.lt_size).adoptChildren

/-- Removing a child keeps the nodes in range. -/
theorem Arena.InRange.removeChild (h : a.InRange)
    (e : a.removeChild parent child = .ok (a', index)) : a'.InRange := by
  obtain ⟨⟨_, hd, -⟩, -, rfl, -⟩ := removeChild_eq_ok_iff.1 e
  exact h.prune (lt_size_of_data? hd)

/-- Inserting a child keeps the nodes in range. -/
theorem Arena.InRange.insertChild (h : a.InRange)
    (e : a.insertChild parent index child = .ok a') : a'.InRange := by
  obtain ⟨m, rfl⟩ := insertChild_eq_ok_iff.1 e
  exact h.plant m

/-- Replacing a node keeps the nodes in range, be it refused. -/
theorem Arena.InRange.replace (h : a.InRange) :
    (Change.replace a parent target replacement).2.InRange := by
  rw [Change.replace]
  split
  · next e => exact h.replaceChild e
  · exact h

/-- Removing a node keeps the nodes in range, be it refused. -/
theorem Arena.InRange.remove (h : a.InRange) : (Change.remove a parent child).2.InRange := by
  rw [Change.remove]
  split
  · next e => exact h.removeChild e
  · exact h

/-- A change keeps the nodes in range, be it refused. -/
theorem Arena.InRange.apply (h : a.InRange) (c : Change) : (c.apply a).2.InRange := by
  rw [Change.apply.eq_def]
  split
  · cases c with
    | simplifyExpr parent target candidate =>
      cases candidate with
      | operand node => exact h.replace
      | literal value => exact h.alloc.replace
    | removeStatement | removeDeclaration => exact h.remove
    | collapseStatement => exact h.replace
  · exact h

/-- Undoing a change keeps the nodes in range. -/
theorem Arena.InRange.revert (h : a.InRange) {edit : Edit} (e : edit.revert a = .ok a') :
    a'.InRange := by
  cases edit with
  | replaced => exact h.replaceChild e
  | removed => exact h.insertChild e

end

namespace ArenaOperation

/-- What settles an operation keeps the nodes in range if its result does. -/
theorem inRange_settle {r : Except ArenaError Arena} (h : a.InRange)
    (hr : ∀ a', r = .ok a' → a'.InRange) : (settle a r).2.InRange := by
  cases r with
  | ok a' => exact hr a' rfl
  | error e => exact h

/-- Every operation keeps the nodes in range. -/
theorem inRange_run (h : a.InRange) (operation : ArenaOperation) :
    (operation.run a).2.InRange := by
  cases operation with
  | alloc data => exact h.alloc
  | replaceChild => exact inRange_settle h fun _ e => h.replaceChild e
  | removeChild parent child =>
    refine inRange_settle h fun a' e => ?_
    cases hr : a.removeChild parent child with
    | error e' => rw [hr] at e; cases e
    | ok r => rw [hr] at e; cases e; exact h.removeChild hr
  | insertChild => exact inRange_settle h fun _ e => h.insertChild e
  | apply change => exact h.apply change
  | revert edit => exact inRange_settle h fun _ e => h.revert e

/-- Operations one after another keep the nodes in range. -/
theorem inRange_runAll (h : a.InRange) (operations : List ArenaOperation) :
    (runAll a operations).InRange := by
  induction operations generalizing a with
  | nil => exact h
  | cons operation rest ih => exact ih (inRange_run h operation)

/-! ## What is refused -/

/-- An operation that is refused leaves the arena as it is. -/
theorem settle_refused {r : Except ArenaError Arena} {e : ReductionError}
    (h : (settle a r).1 = .error e) : (settle a r).2 = a := by
  cases r with
  | ok a' => cases h
  | error e => rfl

end ArenaOperation

/-- Literals are taken where expressions are. -/
theorem SlotKind.accepts_toPayload {slot : SlotKind} {value : LiteralValue} :
    slot.accepts value.toPayload = true ↔ slot = .expression := by
  cases slot <;> cases value <;> simp [accepts, LiteralValue.toPayload, Payload.category]

namespace Change

variable {a : Arena} {parent target replacement child : NodeId}

/-- A replacement that is refused leaves the arena as it is. -/
theorem replace_refused {e : ReductionError}
    (h : (replace a parent target replacement).1 = .error e) :
    (replace a parent target replacement).2 = a := by
  rw [replace] at h ⊢
  split at h
  · cases h
  · rfl

/-- A removal that is refused leaves the arena as it is. -/
theorem remove_refused {e : ReductionError} (h : (remove a parent child).1 = .error e) :
    (remove a parent child).2 = a := by
  rw [remove] at h ⊢
  split at h
  · cases h
  · rfl

/-- A place takes the node of a literal exactly if it may hold an expression. -/
theorem slotTakes_literal (value : LiteralValue) (hp : parent < a.size) :
    (a.alloc value.toPayload).1.SlotTakes parent ((a.childrenOf parent).idxOf target) a.size ↔
      ArenaOperation.TakesExpression a parent target := by
  rw [SlotTakes, data?_alloc_of_lt hp, data?_of_get? get?_alloc_size]
  constructor
  · rintro ⟨data, slot, part, hd, hs, hpart, hok⟩
    cases hpart
    rw [SlotKind.accepts_toPayload] at hok
    rw [ArenaOperation.TakesExpression, hd, Option.bind_some, hs, hok]
  · intro h
    obtain ⟨data, hd, hs⟩ := Option.bind_eq_some_iff.1 h
    exact ⟨data, _, _, hd, hs, rfl, SlotKind.accepts_toPayload.2 rfl⟩

/-- A literal may take the place of a child exactly if an expression may. -/
theorem mayReplace_literal (value : LiteralValue) (hc : a.hasChild parent target = true) :
    (a.alloc value.toPayload).1.MayReplace parent target a.size ↔
      ArenaOperation.TakesExpression a parent target := by
  obtain ⟨hp, hm, -⟩ := hasChild_iff.1 hc
  have htarget := lt_size_of_parent? hp
  rw [← slotTakes_literal value (lt_size_of_mem_childrenOf hm)]
  constructor
  · intro m
    exact childrenOf_alloc ▸ m.slot
  · intro hs
    exact {
      lt_size := by rw [size_alloc]; exact Nat.lt_succ_self _
      child := hasChild_alloc hc
      slot := by rwa [childrenOf_alloc]
      ne_target := Nat.ne_of_gt htarget
      ne_root := Nat.ne_of_gt (Nat.zero_lt_of_lt htarget)
      owner := .inl (by rw [parent?_alloc, parent?_of_size_le (Nat.le_refl _)])
      linked := by
        rw [childrenOf_alloc, childrenOf_of_size_le (Nat.le_refl _)]
        exact fun c h => absurd h List.not_mem_nil }

/-- A literal that stands in for an expression is refused exactly if its place takes no expression,
and its node stays behind. -/
theorem apply_literal_cases (value : LiteralValue) (hc : a.hasChild parent target = true) :
    (ArenaOperation.TakesExpression a parent target ∧ ∃ edit,
      (Change.apply a (.simplifyExpr parent target (.literal value))).1 = .ok edit) ∨
    (¬ ArenaOperation.TakesExpression a parent target ∧ ∃ e,
      Change.apply a (.simplifyExpr parent target (.literal value)) =
        (.error e, (a.alloc value.toPayload).1)) := by
  have happly : Change.apply a (.simplifyExpr parent target (.literal value)) =
      replace (a.alloc value.toPayload).1 parent target a.size := by
    rw [Change.apply.eq_def, if_pos (by exact hc)]
    rfl
  rw [happly, replace, ← mayReplace_literal value hc]
  cases he : (a.alloc value.toPayload).1.replaceChild parent target a.size with
  | ok a' => exact .inl ⟨(replaceChild_eq_ok_iff.1 he).1, _, rfl⟩
  | error e =>
    refine .inr ⟨fun m => ?_, _, rfl⟩
    rw [replaceChild_eq_ok_iff.2 ⟨m, rfl⟩] at he
    cases he

/-- A change that is refused leaves the arena as it is, or a literal behind. -/
theorem apply_refused {c : Change} {e : ReductionError} (h : (c.apply a).1 = .error e)
    (hstray : ArenaOperation.stray? a (.apply c) = none) : (c.apply a).2 = a := by
  cases hholds : c.holds a with
  | false => rw [Change.apply.eq_def, hholds, if_neg Bool.false_ne_true]
  | true =>
    cases c with
    | simplifyExpr parent target candidate =>
      cases candidate with
      | operand node =>
        rw [Change.apply.eq_def, hholds, if_pos rfl] at h ⊢
        exact replace_refused h
      | literal value =>
        rcases apply_literal_cases value hholds with ⟨-, edit, hok⟩ | ⟨htakes, -⟩
        · rw [hok] at h
          cases h
        · rw [ArenaOperation.stray?, if_pos ⟨hholds, htakes⟩] at hstray
          cases hstray
    | removeStatement | removeDeclaration =>
      rw [Change.apply.eq_def, hholds, if_pos rfl] at h ⊢
      exact remove_refused h
    | collapseStatement =>
      rw [Change.apply.eq_def, hholds, if_pos rfl] at h ⊢
      exact replace_refused h

end Change

namespace ArenaOperation

variable {a : Arena} {operation : ArenaOperation} {value : LiteralValue}

/-- An operation that leaves a literal behind is refused, and does nothing else. -/
theorem run_of_stray (h : operation.stray? a = some value) :
    ∃ e, operation.run a = (.error e, (a.alloc value.toPayload).1) := by
  rw [stray?.eq_def] at h
  split at h
  · next parent target value' =>
    split at h
    · next hchild =>
      cases h
      rcases Change.apply_literal_cases value hchild.1 with ⟨htakes, -⟩ | ⟨-, e, he⟩
      · exact absurd htakes hchild.2
      · exact ⟨e, by rw [run, he]; rfl⟩
    · cases h
  · cases h

/-- An operation that is refused leaves the arena as it is if it would not leave a stray literal
behind. -/
theorem run_of_refused {e : ReductionError} (hstray : operation.stray? a = none)
    (h : (operation.run a).1 = .error e) : (operation.run a).2 = a := by
  cases operation with
  | alloc data => cases h
  | replaceChild | removeChild | insertChild | revert => exact settle_refused h
  | apply change =>
    cases he : (change.apply a).1 with
    | ok edit =>
      rw [run, he] at h
      cases h
    | error e => exact Change.apply_refused he hstray

/-- Whatever operations lead from a program to an arena, a further operation uses only numbers of
the arena there, and one that is refused leaves the arena as it is, unless it is a change that puts
a literal where no expression may be. Such a change is always refused, and the node of the literal
stays behind. -/
theorem run_refused (p : Program) (done : List ArenaOperation) (next : ArenaOperation) :
    let a := runAll (ofProgram p) done
    next.steps a = (.ofExcept (next.run a).1, (next.run a).2) ∧
      (next.stray? a = none → ∀ e, (next.run a).1 = .error e → (next.run a).2 = a) ∧
      ∀ value, next.stray? a = some value →
        ∃ e, next.run a = (.error e, (a.alloc value.toPayload).1) :=
  ⟨steps_eq (inRange_runAll (inRange_ofProgram p) done) next,
    fun hstray _ h => run_of_refused hstray h, fun _ h => run_of_stray h⟩

/-- In `void f() { ; }`, the statement is taken out and cannot be put back where the body of the
function is, and a literal cannot take its place. -/
theorem run_refused_statement :
    let p : Program := ⟨[.function "void" "f" [] [.empty]]⟩
    let a := runAll (ofProgram p) [.removeChild 2 3, .revert (.removed 2 3 0)]
    let back : ArenaOperation := .insertChild 1 0 3
    let literal : ArenaOperation := .apply (.simplifyExpr 2 3 (.literal (.int 0)))
    ((back.run a).1 = .error (.structural (.notVariadic 1)) ∧ (back.run a).2 = a) ∧
      ∃ e, literal.run a = (.error e, (a.alloc (.int 0)).1) := by
  intro p a back literal
  have hback : (back.run a).1 = .error (.structural (.notVariadic 1)) := by decide
  exact ⟨⟨hback, (run_refused p _ back).2.1 (by decide) _ hback⟩,
    (run_refused p _ literal).2.2 (.int 0) (by decide)⟩

/-- In `void f() { ; }`, a literal that is to take the place of the statement stays behind. -/
theorem not_run_refused :
    ¬ ∀ (p : Program) (done : List ArenaOperation) (next : ArenaOperation) (e : ReductionError),
      (next.run (runAll (ofProgram p) done)).1 = .error e →
        (next.run (runAll (ofProgram p) done)).2 = runAll (ofProgram p) done := by
  intro h
  have hsame := h ⟨[.function "void" "f" [] [.empty]]⟩ []
    (.apply (.simplifyExpr 2 3 (.literal (.int 0))))
    (.structural (.slotMismatch 2 .statement "int")) (by decide)
  exact absurd hsame (by decide)

end ArenaOperation

end ShaderShrink

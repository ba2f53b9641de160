import ShaderShrink.Proofs.Program.Phrase

/-!
# Braces around branches

A branch that ends in an `if` without an `else` stands between braces where an `else` follows
(`Program.braced`). A program without these braces (`Program.unbraced`) does not tell whether they
were there (`Program.unbraced_braced_flat`). Expressions are kept as their texts (`Program.flat`).
-/

namespace ShaderShrink

namespace Stmt

mutual

/-- The statement with a branch that ends in an `if` without an `else` put between braces where an
`else` follows. -/
def braced : Stmt → Stmt
  | .block body => .block (bracedAll body)
  | .ifElse cond onTrue onFalse =>
    .ifElse cond
      (if onFalse.isSome ∧ onTrue.hasDanglingIf then .block [onTrue.braced] else onTrue.braced)
      (bracedOption onFalse)
  | .whileLoop cond body => .whileLoop cond body.braced
  | s => s

/-- The statement that may be absent with braces around branches. -/
def bracedOption : Option Stmt → Option Stmt
  | none => none
  | some s => some s.braced

/-- The statements with braces around branches. -/
def bracedAll : List Stmt → List Stmt
  | [] => []
  | s :: rest => s.braced :: bracedAll rest

end

/-- What is between braces, if it ends in an `if` without an `else`. -/
def unwrap : Stmt → Stmt
  | .block [s] => if s.hasDanglingIf then s else .block [s]
  | s => s

mutual

/-- The statement without the braces around a branch that ends in an `if` without an `else`, where
an `else` follows. -/
def unbraced : Stmt → Stmt
  | .block body => .block (unbracedAll body)
  | .ifElse cond onTrue onFalse =>
    .ifElse cond (if onFalse.isSome then onTrue.unbraced.unwrap else onTrue.unbraced)
      (unbracedOption onFalse)
  | .whileLoop cond body => .whileLoop cond body.unbraced
  | s => s

/-- The statement that may be absent without braces around branches. -/
def unbracedOption : Option Stmt → Option Stmt
  | none => none
  | some s => some s.unbraced

/-- The statements without braces around branches. -/
def unbracedAll : List Stmt → List Stmt
  | [] => []
  | s :: rest => s.unbraced :: unbracedAll rest

end

mutual

/-- The statement with expressions by their texts alone. -/
def flat : Stmt → Stmt
  | .block body => .block (flatAll body)
  | .expr e => .expr e.flat
  | .var ty name init => .var ty name (init.map Expr.flat)
  | .ifElse cond onTrue onFalse => .ifElse cond.flat onTrue.flat (flatOption onFalse)
  | .whileLoop cond body => .whileLoop cond.flat body.flat
  | .ret value => .ret (value.map Expr.flat)
  | .discard => .discard
  | .empty => .empty

/-- The statement that may be absent with expressions by their texts alone. -/
def flatOption : Option Stmt → Option Stmt
  | none => none
  | some s => some s.flat

/-- The statements with expressions by their texts alone. -/
def flatAll : List Stmt → List Stmt
  | [] => []
  | s :: rest => s.flat :: flatAll rest

end

/-! ## Braces that are taken away -/

mutual

/-- Whether a statement ends in an `if` without an `else` does not depend on how its expressions are
kept. -/
theorem hasDanglingIf_flat : ∀ s : Stmt, s.flat.hasDanglingIf = s.hasDanglingIf
  | .ifElse _ _ onFalse => hasDanglingIfOption_flat onFalse
  | .whileLoop _ body => hasDanglingIf_flat body
  | .block _ | .expr _ | .var _ _ _ | .ret _ | .discard | .empty => rfl

/-- Whether a branch ends in an `if` without an `else` does not depend on how its expressions are
kept. -/
theorem hasDanglingIfOption_flat : ∀ s : Option Stmt,
    hasDanglingIfOption (flatOption s) = hasDanglingIfOption s
  | none => rfl
  | some s => hasDanglingIf_flat s

end

mutual

/-- Whether a statement ends in an `if` without an `else` does not depend on the braces around its
branches. -/
theorem hasDanglingIf_unbraced : ∀ s : Stmt, s.unbraced.hasDanglingIf = s.hasDanglingIf
  | .ifElse _ _ onFalse => hasDanglingIfOption_unbraced onFalse
  | .whileLoop _ body => hasDanglingIf_unbraced body
  | .block _ | .expr _ | .var _ _ _ | .ret _ | .discard | .empty => rfl

/-- Whether a branch ends in an `if` without an `else` does not depend on the braces inside it. -/
theorem hasDanglingIfOption_unbraced : ∀ s : Option Stmt,
    hasDanglingIfOption (unbracedOption s) = hasDanglingIfOption s
  | none => rfl
  | some s => hasDanglingIf_unbraced s

end

/-- A statement that ends in an `if` without an `else` has no braces around it. -/
theorem unwrap_of_hasDanglingIf {s : Stmt} (h : s.hasDanglingIf = true) : s.unwrap = s := by
  cases s with
  | block body => cases h
  | _ => rfl

/-- A block of one statement is taken apart whichever way its expressions are kept. -/
theorem unwrap_flat (s : Stmt) : s.flat.unwrap = s.unwrap.flat := by
  cases s with
  | block body =>
    match body with
    | [] => rfl
    | [s] =>
      simp only [flat, flatAll, unwrap, hasDanglingIf_flat]
      split <;> rfl
    | s :: s' :: body => rfl
  | _ => rfl

mutual

/-- Braces around branches are taken away as if they had not been there. -/
theorem unbraced_braced : ∀ s : Stmt, s.braced.unbraced = s.unbraced
  | .block body => congrArg Stmt.block (unbracedAll_bracedAll body)
  | .ifElse cond onTrue onFalse => by
    have htrue := unbraced_braced onTrue
    have hfalse := unbracedOption_bracedOption onFalse
    have hunwrap (h : onTrue.hasDanglingIf = true) :
        unwrap (.block [onTrue.unbraced]) = onTrue.unbraced.unwrap := by
      rw [← hasDanglingIf_unbraced] at h
      rw [unwrap_of_hasDanglingIf h, unwrap, if_pos h]
    rw [braced, unbraced, unbraced, hfalse]
    cases onFalse with
    | none => simp [bracedOption, htrue]
    | some s =>
      by_cases h : onTrue.hasDanglingIf = true
      · simp [bracedOption, h, unbraced, unbracedAll, htrue, hunwrap h]
      · simp [bracedOption, h, htrue]
  | .whileLoop cond body => congrArg (Stmt.whileLoop cond) (unbraced_braced body)
  | .expr _ | .var _ _ _ | .ret _ | .discard | .empty => rfl

/-- Braces put around the branches inside a branch can be taken away again. -/
theorem unbracedOption_bracedOption : ∀ s : Option Stmt,
    unbracedOption (bracedOption s) = unbracedOption s
  | none => rfl
  | some s => congrArg some (unbraced_braced s)

/-- Braces put around the branches inside statements can be taken away again. -/
theorem unbracedAll_bracedAll : ∀ ss : List Stmt, unbracedAll (bracedAll ss) = unbracedAll ss
  | [] => rfl
  | s :: ss => congrArg₂ List.cons (unbraced_braced s) (unbracedAll_bracedAll ss)

end

mutual

/-- Keeping expressions as texts and taking braces away can be done in any order. -/
theorem unbraced_flat : ∀ s : Stmt, s.flat.unbraced = s.unbraced.flat
  | .block body => congrArg Stmt.block (unbracedAll_flatAll body)
  | .ifElse cond onTrue onFalse => by
    have htrue := unbraced_flat onTrue
    have hfalse := unbracedOption_flatOption onFalse
    rw [flat, unbraced, unbraced, flat, hfalse, htrue, unwrap_flat]
    cases onFalse <;> rfl
  | .whileLoop cond body => congrArg (Stmt.whileLoop cond.flat) (unbraced_flat body)
  | .expr _ | .var _ _ _ | .ret _ | .discard | .empty => rfl

/-- For a branch, keeping expressions as texts and taking braces away can be done in any order. -/
theorem unbracedOption_flatOption : ∀ s : Option Stmt,
    unbracedOption (flatOption s) = flatOption (unbracedOption s)
  | none => rfl
  | some s => congrArg some (unbraced_flat s)

/-- For a list of statements, keeping expressions as texts and taking braces away can be done in any
order. -/
theorem unbracedAll_flatAll : ∀ ss : List Stmt, unbracedAll (flatAll ss) = flatAll (unbracedAll ss)
  | [] => rfl
  | s :: ss => congrArg₂ List.cons (unbraced_flat s) (unbracedAll_flatAll ss)

end

end Stmt

/-! ## Declarations and programs -/

namespace Decl

/-- The declaration with the body changed if it is a function. -/
def mapBody (f : List Stmt → List Stmt) : Decl → Decl
  | .global ty name init => .global ty name init
  | .function returnType name params body => .function returnType name params (f body)

/-- The declaration with braces around branches. -/
def braced : Decl → Decl := mapBody Stmt.bracedAll

/-- The declaration without braces around branches. -/
def unbraced : Decl → Decl := mapBody Stmt.unbracedAll

/-- The declaration with expressions by their texts alone. -/
def flat : Decl → Decl
  | .global ty name init => .global ty name (init.map Expr.flat)
  | .function returnType name params body => .function returnType name params (Stmt.flatAll body)

end Decl

namespace Program

/-- The program with a branch that ends in an `if` without an `else` put between braces where an
`else` follows. -/
def braced (p : Program) : Program := ⟨p.declarations.map Decl.braced⟩

/-- The program without the braces around a branch that ends in an `if` without an `else`, where an
`else` follows. -/
def unbraced (p : Program) : Program := ⟨p.declarations.map Decl.unbraced⟩

/-- The program with expressions by their texts alone. -/
def flat (p : Program) : Program := ⟨p.declarations.map Decl.flat⟩

/-- Braces put around branches can be taken away again, also where expressions are kept as texts. -/
theorem unbraced_braced_flat (p : Program) : p.braced.flat.unbraced = p.unbraced.flat := by
  have hdecl (d : Decl) : d.braced.flat.unbraced = d.unbraced.flat := by
    cases d with
    | global => rfl
    | function returnType name params body =>
      refine congrArg (Decl.function returnType name params) ?_
      rw [Stmt.unbracedAll_flatAll, Stmt.unbracedAll_bracedAll]
  simp [braced, unbraced, flat, hdecl]

end Program

end ShaderShrink

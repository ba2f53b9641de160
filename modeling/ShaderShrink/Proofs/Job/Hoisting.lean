import ShaderShrink.Proofs.Job.Scope

/-!
# Taking statements out of their scopes

A statement that declares no variable has no effect on the scopes behind it (`Stmt.check_eq_self`),
so it may go without a trace, and it may leave a scope that holds nothing else
(`Stmt.check_of_enter`): a new scope without names hides none and adds none. The checker only looks
at what is visible and at what the innermost scope holds (`Scopes.Alike`), and all declarations
inside such a statement are in scopes of their own.
-/

namespace ShaderShrink

namespace Scopes

/-- The same names are visible, and the innermost scopes hold the same ones. -/
structure Alike (s t : Scopes) : Prop where
  innermost : s.innermost = t.innermost
  sees : ∀ name, s.sees name = t.sees name

section
variable {s t s' : Scopes} {name : String}

/-- A new scope hides nothing. -/
theorem sees_enter : s.enter.sees name = s.sees name := by
  simp [Scopes.sees, enter, Bool.or_assoc]

/-- New scopes are alike wherever the same names are visible. -/
theorem alike_enter (h : ∀ name, s.sees name = t.sees name) : s.enter.Alike t.enter :=
  ⟨rfl, fun name => by rw [sees_enter, sees_enter, h]⟩

/-- A name that can be declared in some scopes can be declared in scopes that are alike. -/
theorem Alike.declare (h : s.Alike t) (hs : s.declare name = .ok s') :
    ∃ t', t.declare name = .ok t' ∧ s'.Alike t' := by
  obtain ⟨hnew, rfl⟩ := declare_eq_ok_iff.1 hs
  refine ⟨_, declare_eq_ok_iff.2 ⟨h.innermost ▸ hnew, rfl⟩, by rw [h.innermost], fun other => ?_⟩
  have hsees := h.sees other
  simp only [Scopes.sees, h.innermost, List.contains_cons] at hsees ⊢
  cases other == name <;> simp_all

end

end Scopes

open Scopes

mutual

/-- An expression is checked alike where the same names are seen. -/
theorem Expr.check_congr {s t : Scopes} (h : ∀ name, s.sees name = t.sees name) :
    ∀ e : Expr, e.check s = e.check t
  | .int _ | .float _ | .bool _ => rfl
  | .ident name => by rw [Expr.check, Expr.check, h]
  | .unary _ e | .paren e => Expr.check_congr h e
  | .binary _ l r => by rw [Expr.check, Expr.check, Expr.check_congr h l, Expr.check_congr h r]
  | .call _ args => Expr.checkAll_congr h args
  | .ternary c t f => by
    rw [Expr.check, Expr.check, Expr.check_congr h c, Expr.check_congr h t, Expr.check_congr h f]

/-- Expressions are checked alike where the same names are seen. -/
theorem Expr.checkAll_congr {s t : Scopes} (h : ∀ name, s.sees name = t.sees name) :
    ∀ es : List Expr, Expr.checkAll s es = Expr.checkAll t es
  | [] => rfl
  | e :: rest => by
    rw [Expr.checkAll, Expr.checkAll, Expr.check_congr h e, Expr.checkAll_congr h rest]

end

/-- An expression that may be missing is checked alike where the same names are seen. -/
theorem Expr.checkOption_congr {s t : Scopes} (h : ∀ name, s.sees name = t.sees name)
    (e : Option Expr) : Expr.checkOption s e = Expr.checkOption t e := by
  cases e with
  | none => rfl
  | some e => exact Expr.check_congr h e

namespace Stmt

/-- The statement is not the declaration of a variable. -/
def DeclaresNothing (x : Stmt) : Prop := ∀ ty name init, x ≠ .var ty name init

/-- A statement that is no declaration leaves no names behind. -/
theorem check_eq_self {x : Stmt} {s s' : Scopes} (hx : x.DeclaresNothing)
    (h : x.check s = .ok s') : s' = s := by
  cases x with
  | var ty name init => exact absurd rfl (hx ty name init)
  | block | expr | ret =>
    obtain ⟨_, -, ⟨⟩⟩ := Except.bind_eq_ok_iff.1 h
    rfl
  | ifElse =>
    obtain ⟨_, -, h⟩ := Except.bind_eq_ok_iff.1 h
    obtain ⟨_, -, h⟩ := Except.bind_eq_ok_iff.1 h
    obtain ⟨_, -, ⟨⟩⟩ := Except.bind_eq_ok_iff.1 h
    rfl
  | whileLoop =>
    obtain ⟨_, -, h⟩ := Except.bind_eq_ok_iff.1 h
    obtain ⟨_, -, ⟨⟩⟩ := Except.bind_eq_ok_iff.1 h
    rfl
  | discard | empty =>
    cases h
    rfl

mutual

/-- Where the same names are visible, the checker accepts the same statements. For a declaration the
innermost scopes have to hold the same names, too, and they still do behind it. -/
theorem check_alike : ∀ (x : Stmt) {s t s' : Scopes}, (∀ name, s.sees name = t.sees name) →
    s.Alike t ∨ x.DeclaresNothing → x.check s = .ok s' →
    ∃ t', x.check t = .ok t' ∧ (s.Alike t → s'.Alike t')
  | .block body, s, t, _, h, _, hs => by
    obtain ⟨s₁, hbody, ⟨⟩⟩ := Except.bind_eq_ok_iff.1 hs
    obtain ⟨t₁, hbody⟩ := checkAll_alike body (alike_enter h) hbody
    exact ⟨t, Except.bind_eq_ok_iff.2 ⟨t₁, hbody, rfl⟩, id⟩
  | .expr e, s, t, _, h, _, hs => by
    obtain ⟨u, he, ⟨⟩⟩ := Except.bind_eq_ok_iff.1 hs
    exact ⟨t, Except.bind_eq_ok_iff.2 ⟨u, Expr.check_congr h e ▸ he, rfl⟩, id⟩
  | .var ty name init, s, t, _, h, hd, hs => by
    obtain ⟨u, hinit, hs⟩ := Except.bind_eq_ok_iff.1 hs
    have halike := hd.resolve_right fun hx => hx ty name init rfl
    obtain ⟨t', ht, h'⟩ := halike.declare hs
    refine ⟨t', Except.bind_eq_ok_iff.2 ⟨u, ?_, ht⟩, fun _ => h'⟩
    exact Expr.checkOption_congr h init ▸ hinit
  | .ifElse c x f, s, t, _, h, _, hs => by
    obtain ⟨u, hc, hs⟩ := Except.bind_eq_ok_iff.1 hs
    obtain ⟨s₁, hx, hs⟩ := Except.bind_eq_ok_iff.1 hs
    obtain ⟨s₂, hf, ⟨⟩⟩ := Except.bind_eq_ok_iff.1 hs
    have halike := alike_enter h
    obtain ⟨t₁, hx, -⟩ := check_alike x halike.sees (.inl halike) hx
    obtain ⟨t₂, hf⟩ := checkOption_alike f h hf
    refine ⟨t, Except.bind_eq_ok_iff.2 ⟨u, Expr.check_congr h c ▸ hc, ?_⟩, id⟩
    exact Except.bind_eq_ok_iff.2 ⟨t₁, hx, Except.bind_eq_ok_iff.2 ⟨t₂, hf, rfl⟩⟩
  | .whileLoop c x, s, t, _, h, _, hs => by
    obtain ⟨u, hc, hs⟩ := Except.bind_eq_ok_iff.1 hs
    obtain ⟨s₁, hx, ⟨⟩⟩ := Except.bind_eq_ok_iff.1 hs
    have halike := alike_enter h
    obtain ⟨t₁, hx, -⟩ := check_alike x halike.sees (.inl halike) hx
    refine ⟨t, Except.bind_eq_ok_iff.2 ⟨u, Expr.check_congr h c ▸ hc, ?_⟩, id⟩
    exact Except.bind_eq_ok_iff.2 ⟨t₁, hx, rfl⟩
  | .ret value, s, t, _, h, _, hs => by
    obtain ⟨u, hvalue, ⟨⟩⟩ := Except.bind_eq_ok_iff.1 hs
    refine ⟨t, Except.bind_eq_ok_iff.2 ⟨u, ?_, rfl⟩, id⟩
    exact Expr.checkOption_congr h value ▸ hvalue
  | .discard, s, t, _, _, _, hs | .empty, s, t, _, _, _, hs => by
    cases hs
    exact ⟨t, rfl, id⟩

/-- Statements that pass in some scopes pass in scopes that are alike. -/
theorem checkAll_alike : ∀ (xs : List Stmt) {s t s' : Scopes}, s.Alike t →
    checkAll s xs = .ok s' → ∃ t', checkAll t xs = .ok t'
  | [], s, t, _, _, _ => ⟨t, rfl⟩
  | x :: rest, s, t, _, h, hs => by
    obtain ⟨s₁, hx, hs⟩ := Except.bind_eq_ok_iff.1 hs
    obtain ⟨t₁, hx, h₁⟩ := check_alike x h.sees (.inl h) hx
    obtain ⟨t', hrest⟩ := checkAll_alike rest (h₁ h) hs
    exact ⟨t', Except.bind_eq_ok_iff.2 ⟨t₁, hx, hrest⟩⟩

/-- A branch that passes in some scopes passes where the same names are seen. -/
theorem checkOption_alike : ∀ (x : Option Stmt) {s t s' : Scopes},
    (∀ name, s.sees name = t.sees name) → checkOption s x = .ok s' →
    ∃ t', checkOption t x = .ok t'
  | none, _, t, _, _, _ => ⟨t, rfl⟩
  | some x, s, t, _, h, hs => by
    obtain ⟨s₁, hx, -⟩ := Except.bind_eq_ok_iff.1 hs
    have halike := alike_enter h
    obtain ⟨t₁, hx, -⟩ := check_alike x halike.sees (.inl halike) hx
    exact ⟨t, Except.bind_eq_ok_iff.2 ⟨t₁, hx, rfl⟩⟩

end

/-- A statement that is no declaration may leave a scope that it is alone in. -/
theorem check_of_enter {x : Stmt} {s s' : Scopes} (hx : x.DeclaresNothing)
    (h : x.check s.enter = .ok s') : x.check s = .ok s := by
  obtain ⟨t, ht, -⟩ := check_alike (t := s) x (fun _ => sees_enter) (.inr hx) h
  rw [ht, check_eq_self hx ht]

end Stmt

end ShaderShrink

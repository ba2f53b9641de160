import Mathlib.Tactic.Common
import ShaderShrink.Job.Scope

/-!
# What it means that names are declared where they are used

The text of a program, as far as names are concerned, is a list of tokens: scopes are entered and
left, names are used and declared (`Program.scopeTokens`). The rules of scoping are said of places
in that list. A scope is known by how deep it is nested and is open until the nesting gets less deep
(`ScopeToken.StaysOpen`), and a place violates the rules (`ScopeToken.Violation`) if a name is used
there that no declaration in front of it makes visible, or declared there although its scope has
declared it before. There is no stack of scopes in this; the module on the checker compares the two.
-/

namespace ShaderShrink

/-- What a piece of the text of a program does with names. -/
inductive ScopeToken where
  | enter
  | leave
  | use (name : String)
  | declare (name : String)
  deriving DecidableEq, Repr

namespace ScopeToken

/-- Tokens in a scope of their own. -/
def inScope (ts : List ScopeToken) : List ScopeToken := .enter :: (ts ++ [.leave])

/-- How deep the scopes are nested behind some tokens. -/
def level (ts : List ScopeToken) : Nat :=
  ts.foldl (fun n t =>
    match t with
    | .enter => n + 1
    | .leave => n - 1
    | .use _ | .declare _ => n) 0

/-- The scope around the place `j` is still open at the place `i`: from the one to the other the
nesting does not get less deep. -/
def StaysOpen (ts : List ScopeToken) (j i : Nat) : Prop :=
  ∀ k, j ≤ k → k ≤ i → level (ts.take j) ≤ level (ts.take k)

/-- The name is built in, or it is declared in front of the place in a scope that is still open,
which is that of the place or one around it. -/
def Visible (ts : List ScopeToken) (i : Nat) (name : String) : Prop :=
  "gl_".toList <+: name.toList ∨ ∃ j < i, ts[j]? = some (.declare name) ∧ StaysOpen ts j i

/-- The name is declared in front of the place in the same scope. -/
def Repeated (ts : List ScopeToken) (i : Nat) (name : String) : Prop :=
  ∃ j < i, ts[j]? = some (.declare name) ∧ StaysOpen ts j i ∧
    level (ts.take j) = level (ts.take i)

/-- What is wrong at a place. -/
inductive Violation (ts : List ScopeToken) (i : Nat) : ValidationError → Prop
  | undeclared {name : String} : ts[i]? = some (.use name) → ¬ Visible ts i name →
    Violation ts i (.undeclaredIdentifier name)
  | duplicate {name : String} : ts[i]? = some (.declare name) → Repeated ts i name →
    Violation ts i (.duplicateDeclaration name)

/-- Nothing is wrong at any place. -/
def WellScoped (ts : List ScopeToken) : Prop := ∀ i e, ¬ Violation ts i e

/-- What is wrong at the first place at which something is. -/
def FirstViolation (ts : List ScopeToken) (e : ValidationError) : Prop :=
  ∃ i, Violation ts i e ∧ ∀ j < i, ∀ e', ¬ Violation ts j e'

end ScopeToken

/-! ## The tokens of a program -/

mutual

/-- The names that an expression uses, in the order of the text. Called names are not used. -/
def Expr.scopeTokens : Expr → List ScopeToken
  | .ident name => [.use name]
  | .unary _ e => e.scopeTokens
  | .binary _ l r => l.scopeTokens ++ r.scopeTokens
  | .call _ args => Expr.scopeTokensAll args
  | .paren e => e.scopeTokens
  | .ternary c t f => c.scopeTokens ++ (t.scopeTokens ++ f.scopeTokens)
  | _ => []

/-- The names that some expressions use. -/
def Expr.scopeTokensAll : List Expr → List ScopeToken
  | [] => []
  | e :: rest => e.scopeTokens ++ Expr.scopeTokensAll rest

end

/-- The names that an expression uses, if there is one. -/
def Expr.scopeTokensOption (e : Option Expr) : List ScopeToken := e.elim [] Expr.scopeTokens

mutual

/-- The tokens of a statement. A variable is declared behind its initializer, and branches and loop
bodies have scopes of their own, blocks or not. -/
def Stmt.scopeTokens : Stmt → List ScopeToken
  | .block body => ScopeToken.inScope (Stmt.scopeTokensAll body)
  | .expr e => e.scopeTokens
  | .var _ name init => Expr.scopeTokensOption init ++ [.declare name]
  | .ifElse cond onTrue onFalse =>
    cond.scopeTokens ++ (ScopeToken.inScope onTrue.scopeTokens ++ Stmt.scopeTokensOption onFalse)
  | .whileLoop cond body => cond.scopeTokens ++ ScopeToken.inScope body.scopeTokens
  | .ret value => Expr.scopeTokensOption value
  | .discard => []
  | .empty => []

/-- The tokens of some statements. -/
def Stmt.scopeTokensAll : List Stmt → List ScopeToken
  | [] => []
  | s :: rest => s.scopeTokens ++ Stmt.scopeTokensAll rest

/-- The tokens of a branch that may be absent. -/
def Stmt.scopeTokensOption : Option Stmt → List ScopeToken
  | none => []
  | some s => ScopeToken.inScope s.scopeTokens

end

/-- The tokens of a declaration. The parameters of a function and the top level of its body share a
scope. -/
def Decl.scopeTokens : Decl → List ScopeToken
  | .global _ name init => Expr.scopeTokensOption init ++ [.declare name]
  | .function _ _ params body =>
    ScopeToken.inScope (params.map (fun p => .declare p.name) ++ Stmt.scopeTokensAll body)

namespace Program

/-- The tokens of a program. -/
def scopeTokens (p : Program) : List ScopeToken := p.declarations.flatMap Decl.scopeTokens

/-- A function has the name of the entry point. -/
def HasEntryPoint (p : Program) : Prop :=
  ∃ returnType params body, Decl.function returnType "main" params body ∈ p.declarations

end Program

/-! ## Places -/

namespace ScopeToken

section
variable {ts us : List ScopeToken} {t : ScopeToken} {i j : Nat} {name : String}
  {e : ValidationError}

/-- Entering a scope adds a level. -/
@[simp] theorem level_enter : level (ts ++ [.enter]) = level ts + 1 := by simp [level]

/-- Leaving a scope takes a level away. -/
@[simp] theorem level_leave : level (ts ++ [.leave]) = level ts - 1 := by simp [level]

/-- A use of a name leaves the level as it is. -/
@[simp] theorem level_use : level (ts ++ [.use name]) = level ts := by simp [level]

/-- A declaration leaves the level as it is. -/
@[simp] theorem level_declare : level (ts ++ [.declare name]) = level ts := by simp [level]

/-- What is open at a place does not hang on the tokens behind it. -/
theorem staysOpen_append (hi : i ≤ ts.length) :
    StaysOpen (ts ++ us) j i ↔ StaysOpen ts j i := by
  have htake {k : Nat} (hk : k ≤ i) : (ts ++ us).take k = ts.take k :=
    List.take_append_of_le_length (Nat.le_trans hk hi)
  refine forall₃_congr fun k hjk hki => ?_
  rw [htake hki, htake (Nat.le_trans hjk hki)]

/-- What is visible at a place does not hang on the tokens behind it. -/
theorem visible_append (hi : i ≤ ts.length) :
    Visible (ts ++ us) i name ↔ Visible ts i name := by
  refine or_congr_right (exists_congr fun j => and_congr_right fun hj => ?_)
  rw [List.getElem?_append_left (by omega), staysOpen_append hi]

/-- Whether a name is repeated does not depend on what comes later. -/
theorem repeated_append (hi : i ≤ ts.length) :
    Repeated (ts ++ us) i name ↔ Repeated ts i name := by
  refine exists_congr fun j => and_congr_right fun hj => ?_
  rw [List.getElem?_append_left (by omega), staysOpen_append hi,
    List.take_append_of_le_length (by omega), List.take_append_of_le_length hi]

/-- A rule is violated by the use of a name that is not visible, or by the declaration of one that
is repeated. -/
theorem violation_iff : Violation ts i e ↔
    (∃ name, e = .undeclaredIdentifier name ∧ ts[i]? = some (.use name) ∧ ¬ Visible ts i name) ∨
    ∃ name, e = .duplicateDeclaration name ∧ ts[i]? = some (.declare name) ∧
      Repeated ts i name := by
  constructor
  · rintro (⟨hu, hv⟩ | ⟨hd, hr⟩)
    · exact .inl ⟨_, rfl, hu, hv⟩
    · exact .inr ⟨_, rfl, hd, hr⟩
  · rintro (⟨_, rfl, hu, hv⟩ | ⟨_, rfl, hd, hr⟩)
    · exact .undeclared hu hv
    · exact .duplicate hd hr

/-- What is wrong at a place does not hang on the tokens behind it. -/
theorem violation_append (hi : i < ts.length) :
    Violation (ts ++ us) i e ↔ Violation ts i e := by
  simp only [violation_iff, List.getElem?_append_left hi, visible_append (Nat.le_of_lt hi),
    repeated_append (Nat.le_of_lt hi)]

/-- A rule is violated by one of the tokens. -/
theorem lt_length_of_violation (h : Violation ts i e) : i < ts.length := by
  cases h with
  | undeclared hu => exact (List.getElem?_eq_some_iff.1 hu).1
  | duplicate hd => exact (List.getElem?_eq_some_iff.1 hd).1

/-- At a place no more than one thing is wrong. -/
theorem violation_unique {e' : ValidationError} (h : Violation ts i e) (h' : Violation ts i e') :
    e = e' := by
  cases h <;> cases h' <;> simp_all

/-- No more than one thing is the first that is wrong. -/
theorem firstViolation_unique {e' : ValidationError} (h : FirstViolation ts e)
    (h' : FirstViolation ts e') : e = e' := by
  obtain ⟨i, hi, hfirst⟩ := h
  obtain ⟨j, hj, hfirst'⟩ := h'
  rcases Nat.lt_trichotomy i j with hij | rfl | hij
  · exact absurd hi (hfirst' i hij e)
  · exact violation_unique hi hj
  · exact absurd hj (hfirst j hij e')

/-! ## Behind the last token -/

/-- A token declares a name at a level of nesting, and its scope is open behind the last token. -/
def Open (ts : List ScopeToken) (d : Nat) (name : String) : Prop :=
  ∃ j, ts[j]? = some (.declare name) ∧ StaysOpen ts j ts.length ∧ level (ts.take j) = d

/-- Without tokens no scope holds anything. -/
theorem not_open_nil {d : Nat} : ¬ Open [] d name := by
  rintro ⟨j, hj, -⟩
  cases hj

/-- What is visible behind the last token is what open scopes declare. -/
theorem visible_length_iff :
    Visible ts ts.length name ↔ "gl_".toList <+: name.toList ∨ ∃ d, Open ts d name := by
  refine or_congr_right ⟨?_, ?_⟩
  · rintro ⟨j, -, hj, hopen⟩
    exact ⟨_, j, hj, hopen, rfl⟩
  · rintro ⟨_, j, hj, hopen, -⟩
    exact ⟨j, (List.getElem?_eq_some_iff.1 hj).1, hj, hopen⟩

/-- A name is repeated behind the last token if the innermost scope declares it. -/
theorem repeated_length_iff : Repeated ts ts.length name ↔ Open ts (level ts) name := by
  rw [Repeated, List.take_length]
  constructor
  · rintro ⟨j, -, h⟩
    exact ⟨j, h⟩
  · rintro ⟨j, hj, h⟩
    exact ⟨j, (List.getElem?_eq_some_iff.1 hj).1, hj, h⟩

/-- A scope is open behind one more token if it was open before and the nesting is still as deep. -/
theorem staysOpen_snoc (hj : j ≤ ts.length) : StaysOpen (ts ++ [t]) j (ts.length + 1) ↔
    StaysOpen ts j ts.length ∧ level (ts.take j) ≤ level (ts ++ [t]) := by
  have hall : (ts ++ [t]).take (ts.length + 1) = ts ++ [t] :=
    List.take_of_length_le (Nat.le_of_eq List.length_append)
  have htake : (ts ++ [t]).take j = ts.take j := List.take_append_of_le_length hj
  have happend : StaysOpen (ts ++ [t]) j ts.length ↔ StaysOpen ts j ts.length :=
    staysOpen_append (Nat.le_refl _)
  rw [← happend]
  constructor
  · intro h
    refine ⟨fun k hjk hk => h k hjk (Nat.le_succ_of_le hk), ?_⟩
    have hlast := h _ (Nat.le_succ_of_le hj) (Nat.le_refl _)
    rwa [hall, htake] at hlast
  · rintro ⟨h, hlast⟩ k hjk hk
    rcases Nat.lt_succ_iff_lt_or_eq.1 (Nat.lt_succ_of_le hk) with hk | rfl
    · exact h k hjk (Nat.le_of_lt_succ hk)
    · rwa [hall, htake]

/-- What one more token does to the open declarations: those of scopes that are no longer open are
forgotten, and the token may declare a name itself. -/
theorem open_snoc {d : Nat} : Open (ts ++ [t]) d name ↔
    Open ts d name ∧ d ≤ level (ts ++ [t]) ∨ t = .declare name ∧ d = level ts := by
  have hlen : (ts ++ [t]).length = ts.length + 1 := List.length_append
  rw [Open, hlen]
  constructor
  · rintro ⟨j, hj, hopen, rfl⟩
    by_cases hlt : j < ts.length
    · have hle := Nat.le_of_lt hlt
      rw [List.getElem?_append_left hlt] at hj
      rw [List.take_append_of_le_length hle]
      obtain ⟨hopen, hlast⟩ := (staysOpen_snoc hle).1 hopen
      exact .inl ⟨⟨j, hj, hopen, rfl⟩, hlast⟩
    · have hjlen := (List.getElem?_eq_some_iff.1 hj).1
      obtain rfl : j = ts.length := by omega
      right
      simpa using hj
  · rintro (⟨⟨j, hj, hopen, rfl⟩, hlast⟩ | ⟨rfl, rfl⟩)
    · have hlt := (List.getElem?_eq_some_iff.1 hj).1
      have hle := Nat.le_of_lt hlt
      exact ⟨j, by rw [List.getElem?_append_left hlt, hj], (staysOpen_snoc hle).2 ⟨hopen, hlast⟩,
        by rw [List.take_append_of_le_length hle]⟩
    · refine ⟨ts.length, by simp, (staysOpen_snoc (Nat.le_refl _)).2 ⟨?_, ?_⟩, by simp⟩
      · intro k hk hk'
        obtain rfl := Nat.le_antisymm hk' hk
        exact Nat.le_refl _
      · simp

end

end ScopeToken

end ShaderShrink

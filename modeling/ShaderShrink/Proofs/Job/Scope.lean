import Mathlib.Data.List.Induction
import ShaderShrink.Proofs.Except
import ShaderShrink.Proofs.Job.Scoping

/-!
# The checker finds the first violation of the rules of scoping

The checker goes through a program as through its tokens (`Program.readAll_scopeTokens`): a scope
that is entered is a new list of names, and leaving it gives back the scopes around it. What the
scopes hold, after some tokens, is what these declare in scopes that are still open
(`Scopes.Tracks`), and each token keeps this (`Scopes.Tracks.read`). So reading the tokens fails at
the first place that violates the rules and with what is wrong there (`Scopes.readAll_top`), and
`Program.check_eq` says it of the checker.
-/

namespace ShaderShrink

open ScopeToken

namespace Scopes

/-- The scopes behind the end of the innermost one. -/
def leave : Scopes → Scopes
  | ⟨innermost, []⟩ => ⟨innermost, []⟩
  | ⟨_, frame :: outer⟩ => ⟨frame, outer⟩

/-- Reads a token. -/
def read (s : Scopes) : ScopeToken → Except ValidationError Scopes
  | .enter => .ok s.enter
  | .leave => .ok s.leave
  | .use name => if s.sees name then .ok s else .error (.undeclaredIdentifier name)
  | .declare name => s.declare name

/-- Reads some tokens. -/
def readAll (s : Scopes) (ts : List ScopeToken) : Except ValidationError Scopes := ts.foldlM read s

section
variable {s s' : Scopes} {ts us : List ScopeToken} {name : String}

/-- Tokens are read one after another. -/
theorem readAll_append : s.readAll (ts ++ us) = (s.readAll ts).bind (·.readAll us) :=
  List.foldlM_append

/-- A single token is read on its own. -/
theorem readAll_singleton (t : ScopeToken) : s.readAll [t] = s.read t := bind_pure _

/-- A declaration leaves the scopes around the innermost one as they are. -/
theorem outer_declare (h : s.declare name = .ok s') : s'.outer = s.outer := by
  unfold declare at h
  split at h
  · cases h
  · cases h
    rfl

/-- Tokens in a scope of their own leave the scopes around it as they are. -/
theorem readAll_inScope (h : ∀ s', s.enter.readAll ts = .ok s' → s'.outer = s.enter.outer) :
    s.readAll (inScope ts) = (s.enter.readAll ts).bind fun _ => .ok s := by
  rw [inScope, readAll, List.foldlM_cons]
  change s.enter.readAll (ts ++ [.leave]) = _
  rw [readAll_append]
  cases hr : s.enter.readAll ts with
  | error e => rfl
  | ok s' =>
    obtain ⟨innermost, outer⟩ := s'
    obtain rfl : outer = s.enter.outer := h _ hr
    rfl

end

end Scopes

/-! ## The checker reads the tokens -/

mutual

/-- Checking an expression is reading its tokens, which leaves the scopes as they are. -/
theorem Expr.readAll_scopeTokens : ∀ (e : Expr) (s : Scopes),
    s.readAll e.scopeTokens = (e.check s).bind fun _ => .ok s
  | .int _, _ | .float _, _ | .bool _, _ => rfl
  | .ident name, s => by
    rw [Expr.scopeTokens, Scopes.readAll_singleton, Scopes.read, Expr.check]
    split <;> rfl
  | .unary _ e, s | .paren e, s => e.readAll_scopeTokens s
  | .binary _ l r, s => by
    rw [Expr.scopeTokens, Scopes.readAll_append, l.readAll_scopeTokens s, Expr.check]
    cases l.check s with
    | error => rfl
    | ok => exact r.readAll_scopeTokens s
  | .call _ args, s => Expr.readAll_scopeTokensAll args s
  | .ternary c t f, s => by
    rw [Expr.scopeTokens, Scopes.readAll_append, c.readAll_scopeTokens s, Expr.check]
    cases c.check s with
    | error => rfl
    | ok =>
      change s.readAll (t.scopeTokens ++ f.scopeTokens) = _
      rw [Scopes.readAll_append, t.readAll_scopeTokens s]
      cases t.check s with
      | error => rfl
      | ok => exact f.readAll_scopeTokens s

/-- Checking expressions is reading their tokens. -/
theorem Expr.readAll_scopeTokensAll : ∀ (es : List Expr) (s : Scopes),
    s.readAll (Expr.scopeTokensAll es) = (Expr.checkAll s es).bind fun _ => .ok s
  | [], _ => rfl
  | e :: rest, s => by
    rw [Expr.scopeTokensAll, Scopes.readAll_append, e.readAll_scopeTokens s, Expr.checkAll]
    cases e.check s with
    | error => rfl
    | ok => exact Expr.readAll_scopeTokensAll rest s

end

/-- Checking an expression that may be missing is reading its tokens. -/
theorem Expr.readAll_scopeTokensOption (e : Option Expr) (s : Scopes) :
    s.readAll (Expr.scopeTokensOption e) = (Expr.checkOption s e).bind fun _ => .ok s := by
  cases e with
  | none => rfl
  | some e => exact e.readAll_scopeTokens s

mutual

/-- Checking a statement leaves the scopes around the innermost one as they are. -/
theorem Stmt.outer_check : ∀ {t : Stmt} {s s' : Scopes}, t.check s = .ok s' → s'.outer = s.outer
  | .block _, _, _, h | .expr _, _, _, h | .ret _, _, _, h => by
    obtain ⟨_, -, ⟨⟩⟩ := Except.bind_eq_ok_iff.1 h
    rfl
  | .var _ _ _, _, _, h => by
    obtain ⟨_, -, h⟩ := Except.bind_eq_ok_iff.1 h
    exact Scopes.outer_declare h
  | .ifElse _ _ _, _, _, h => by
    obtain ⟨_, -, h⟩ := Except.bind_eq_ok_iff.1 h
    obtain ⟨_, -, h⟩ := Except.bind_eq_ok_iff.1 h
    obtain ⟨_, -, ⟨⟩⟩ := Except.bind_eq_ok_iff.1 h
    rfl
  | .whileLoop _ _, _, _, h => by
    obtain ⟨_, -, h⟩ := Except.bind_eq_ok_iff.1 h
    obtain ⟨_, -, ⟨⟩⟩ := Except.bind_eq_ok_iff.1 h
    rfl
  | .discard, _, _, h | .empty, _, _, h => by
    cases h
    rfl

/-- Statements leave the scopes around the innermost one as they are. -/
theorem Stmt.outer_checkAll : ∀ {ts : List Stmt} {s s' : Scopes},
    Stmt.checkAll s ts = .ok s' → s'.outer = s.outer
  | [], _, _, h => by
    cases h
    rfl
  | _ :: _, _, _, h => by
    obtain ⟨s₁, h₁, h⟩ := Except.bind_eq_ok_iff.1 h
    rw [Stmt.outer_checkAll h, Stmt.outer_check h₁]

end

/-- A branch leaves all scopes as they are. -/
theorem Stmt.checkOption_eq (t : Option Stmt) (s : Scopes) :
    Stmt.checkOption s t = (Stmt.checkOption s t).bind fun _ => .ok s := by
  cases t with
  | none => rfl
  | some t =>
    rw [Stmt.checkOption]
    cases t.check s.enter with
    | error => rfl
    | ok => rfl

mutual

/-- Checking a statement is reading its tokens. -/
theorem Stmt.readAll_scopeTokens : ∀ (t : Stmt) (s : Scopes), s.readAll t.scopeTokens = t.check s
  | .block body, s => by
    have hbody := Stmt.readAll_scopeTokensAll body s.enter
    rw [Stmt.scopeTokens, Scopes.readAll_inScope (fun s' h => Stmt.outer_checkAll (hbody ▸ h)),
      hbody]
    rfl
  | .expr e, s => e.readAll_scopeTokens s
  | .var _ name init, s => by
    rw [Stmt.scopeTokens, Scopes.readAll_append, Expr.readAll_scopeTokensOption, Stmt.check]
    cases Expr.checkOption s init with
    | error => rfl
    | ok => exact Scopes.readAll_singleton _
  | .ifElse cond onTrue onFalse, s => by
    rw [Stmt.scopeTokens, Scopes.readAll_append, cond.readAll_scopeTokens, Stmt.check]
    cases cond.check s with
    | error => rfl
    | ok =>
      have htrue := onTrue.readAll_scopeTokens s.enter
      change s.readAll (_ ++ _) = _
      rw [Scopes.readAll_append,
        Scopes.readAll_inScope (fun s' h => Stmt.outer_check (htrue ▸ h)), htrue]
      cases onTrue.check s.enter with
      | error => rfl
      | ok =>
        exact (Stmt.readAll_scopeTokensOption onFalse s).trans (Stmt.checkOption_eq onFalse s)
  | .whileLoop cond body, s => by
    rw [Stmt.scopeTokens, Scopes.readAll_append, cond.readAll_scopeTokens, Stmt.check]
    cases cond.check s with
    | error => rfl
    | ok =>
      have hbody := body.readAll_scopeTokens s.enter
      change s.readAll (inScope _) = _
      rw [Scopes.readAll_inScope (fun s' h => Stmt.outer_check (hbody ▸ h)), hbody]
      rfl
  | .ret value, s => Expr.readAll_scopeTokensOption value s
  | .discard, _ | .empty, _ => rfl

/-- Checking statements is reading their tokens. -/
theorem Stmt.readAll_scopeTokensAll : ∀ (ts : List Stmt) (s : Scopes),
    s.readAll (Stmt.scopeTokensAll ts) = Stmt.checkAll s ts
  | [], _ => rfl
  | t :: rest, s => by
    rw [Stmt.scopeTokensAll, Scopes.readAll_append, t.readAll_scopeTokens, Stmt.checkAll]
    cases t.check s with
    | error => rfl
    | ok s' => exact Stmt.readAll_scopeTokensAll rest s'

/-- Checking a branch that may be missing is reading its tokens. -/
theorem Stmt.readAll_scopeTokensOption : ∀ (t : Option Stmt) (s : Scopes),
    s.readAll (Stmt.scopeTokensOption t) = Stmt.checkOption s t
  | none, _ => rfl
  | some t, s => by
    have ht := t.readAll_scopeTokens s.enter
    rw [Stmt.scopeTokensOption, Scopes.readAll_inScope (fun s' h => Stmt.outer_check (ht ▸ h)), ht]
    rfl

end

/-- Declaring parameters is reading their tokens. -/
theorem Param.readAll_scopeTokens (ps : List Param) (s : Scopes) :
    s.readAll (ps.map fun p => .declare p.name) = ps.foldlM (fun s p => s.declare p.name) s := by
  rw [Scopes.readAll, List.foldlM_map]
  rfl

/-- Parameters leave the scopes around the innermost one as they are. -/
theorem Param.outer_declareAll {ps : List Param} {s s' : Scopes}
    (h : ps.foldlM (fun s p => s.declare p.name) s = .ok s') : s'.outer = s.outer := by
  induction ps generalizing s with
  | nil =>
    cases h
    rfl
  | cons p rest ih =>
    rw [List.foldlM_cons] at h
    obtain ⟨s₁, h₁, h⟩ := Except.bind_eq_ok_iff.1 h
    rw [ih h, Scopes.outer_declare h₁]

/-- Checking a declaration is reading its tokens. -/
theorem Decl.readAll_scopeTokens (d : Decl) (s : Scopes) :
    s.readAll d.scopeTokens = d.check s := by
  cases d with
  | global ty name init =>
    rw [Decl.scopeTokens, Scopes.readAll_append, Expr.readAll_scopeTokensOption, Decl.check]
    cases Expr.checkOption s init with
    | error => rfl
    | ok => exact Scopes.readAll_singleton _
  | function returnType name params body =>
    have hinside : s.enter.readAll (params.map (fun p => .declare p.name) ++
        Stmt.scopeTokensAll body) =
        (params.foldlM (fun (s : Scopes) p => s.declare p.name) s.enter).bind
          (Stmt.checkAll · body) := by
      rw [Scopes.readAll_append, Param.readAll_scopeTokens]
      exact bind_congr fun s => Stmt.readAll_scopeTokensAll body s
    rw [Decl.scopeTokens, Scopes.readAll_inScope, hinside, Decl.check]
    · cases params.foldlM (fun (s : Scopes) p => s.declare p.name) s.enter <;> rfl
    · intro s' h
      rw [hinside] at h
      obtain ⟨s₁, h₁, h⟩ := Except.bind_eq_ok_iff.1 h
      rw [Stmt.outer_checkAll h, Param.outer_declareAll h₁]

/-- The checker goes through a program as through its tokens. -/
theorem Program.readAll_scopeTokens (p : Program) :
    Scopes.top.readAll p.scopeTokens = p.checkScopes := by
  rw [Program.scopeTokens, Program.checkScopes]
  generalize Scopes.top = s
  induction p.declarations generalizing s with
  | nil => rfl
  | cons d rest ih =>
    rw [List.flatMap_cons, Scopes.readAll_append, d.readAll_scopeTokens, List.foldlM_cons]
    exact bind_congr fun s => ih s

/-! ## What the scopes hold -/

namespace Scopes

/-- Of some scopes, from the inside out, the one at a level of nesting holds a name. -/
def HeldIn : List (List String) → Nat → String → Prop
  | [], _, _ => False
  | frame :: outer, d, name => d = outer.length ∧ name ∈ frame ∨ HeldIn outer d name

/-- The scope at a level of nesting holds a name. -/
def Holds (s : Scopes) (d : Nat) (name : String) : Prop := HeldIn (s.innermost :: s.outer) d name

section
variable {s s' : Scopes} {frames : List (List String)} {d : Nat} {name new : String}

/-- A list that holds a name is one of the lists. -/
theorem lt_of_heldIn (h : HeldIn frames d name) : d < frames.length := by
  induction frames with
  | nil => cases h
  | cons frame outer ih =>
    rw [List.length_cons]
    rcases h with ⟨rfl, -⟩ | h
    · exact Nat.lt_succ_self _
    · exact Nat.lt_succ_of_lt (ih h)

/-- A name is held at some depth if it is in one of the lists. -/
theorem exists_heldIn_iff : (∃ d, HeldIn frames d name) ↔ ∃ frame ∈ frames, name ∈ frame := by
  induction frames with
  | nil => simp [HeldIn]
  | cons frame outer ih => simp [HeldIn, exists_or, ih]

/-- The innermost scope is the one at the deepest level. -/
theorem holds_innermost : s.Holds s.outer.length name ↔ name ∈ s.innermost := by
  constructor
  · rintro (⟨-, h⟩ | h)
    · exact h
    · exact absurd (lt_of_heldIn h) (Nat.lt_irrefl _)
  · exact fun h => .inl ⟨rfl, h⟩

/-- Outside all functions no name is held before any declaration. -/
theorem not_holds_top : ¬ top.Holds d name := by
  rintro (⟨-, h⟩ | h)
  · cases h
  · exact h

/-- A scope that was just entered holds nothing. -/
theorem holds_enter : s.enter.Holds d name ↔ s.Holds d name :=
  or_iff_right fun h => List.not_mem_nil h.2

/-- Leaving a scope forgets the names at its level. -/
theorem holds_leave : s.leave.Holds d name ↔ s.Holds d name ∧ d ≤ s.leave.outer.length := by
  obtain ⟨innermost, outer⟩ := s
  cases outer with
  | nil => exact ⟨fun h => ⟨h, Nat.le_of_lt_succ (lt_of_heldIn h)⟩, fun h => h.1⟩
  | cons frame outer =>
    constructor
    · intro h
      exact ⟨.inr h, Nat.le_of_lt_succ (lt_of_heldIn h)⟩
    · rintro ⟨⟨rfl, -⟩ | h, hle⟩
      · exact absurd hle (Nat.not_succ_le_self _)
      · exact h

/-- A name can be declared unless the innermost scope has it, which then holds it. -/
theorem declare_eq_ok_iff : s.declare new = .ok s' ↔
    new ∉ s.innermost ∧ s' = ⟨new :: s.innermost, s.outer⟩ := by
  rw [declare]
  split
  · next h => simp_all
  · next h => simp_all [eq_comm]

/-- A declaration adds its name to what the innermost scope holds. -/
theorem holds_cons : Holds ⟨new :: s.innermost, s.outer⟩ d name ↔
    s.Holds d name ∨ d = s.outer.length ∧ name = new := by
  simp only [Holds, HeldIn, List.mem_cons]
  tauto

/-- A name is seen if it is built in or one of the scopes holds it. -/
theorem sees_iff : s.sees name = true ↔ "gl_".toList <+: name.toList ∨ ∃ d, s.Holds d name := by
  simp [sees, isBuiltIn, Holds, exists_heldIn_iff, or_assoc]

/-- The scopes hold, each at its level, what the tokens declare in open scopes. -/
structure Tracks (s : Scopes) (ts : List ScopeToken) : Prop where
  level_eq : level ts = s.outer.length
  holds_iff {d : Nat} {name : String} : s.Holds d name ↔ Open ts d name

variable {ts : List ScopeToken} {t : ScopeToken} {e : ValidationError}

/-- The scopes that a check starts with are those behind no tokens. -/
theorem tracks_top : top.Tracks [] :=
  ⟨rfl, iff_of_false not_holds_top not_open_nil⟩

/-- The names that are seen behind some tokens are the visible ones. -/
theorem Tracks.sees_iff (h : s.Tracks ts) : s.sees name = true ↔ Visible ts ts.length name := by
  simp only [Scopes.sees_iff, visible_length_iff, h.holds_iff]

/-- The names in the innermost scope are those that must not be declared again. -/
theorem Tracks.mem_innermost_iff (h : s.Tracks ts) :
    name ∈ s.innermost ↔ Repeated ts ts.length name := by
  rw [repeated_length_iff, ← h.holds_iff, h.level_eq, holds_innermost]

/-- Each token keeps it that the scopes hold what is declared. -/
theorem Tracks.read (h : s.Tracks ts) (hr : s.read t = .ok s') : s'.Tracks (ts ++ [t]) := by
  have hbound {d : Nat} {name : String} : s.Holds d name → d ≤ s.outer.length := fun hd =>
    Nat.le_of_lt_succ (lt_of_heldIn hd)
  cases t with
  | enter =>
    cases hr
    refine ⟨by simp [h.level_eq, enter], fun {d name} => ?_⟩
    rw [holds_enter, open_snoc, ← h.holds_iff, level_enter, h.level_eq]
    grind
  | leave =>
    cases hr
    have hlevel : level (ts ++ [.leave]) = s.leave.outer.length := by
      obtain ⟨innermost, outer⟩ := s
      rw [level_leave, h.level_eq]
      cases outer <;> rfl
    refine ⟨hlevel, fun {d name} => ?_⟩
    rw [holds_leave, open_snoc, ← h.holds_iff, hlevel]
    simp
  | use name' =>
    simp only [Scopes.read] at hr
    split at hr
    · cases hr
      refine ⟨by simp [h.level_eq], fun {d name} => ?_⟩
      rw [open_snoc, ← h.holds_iff, level_use, h.level_eq]
      grind
    · cases hr
  | declare new =>
    obtain ⟨-, rfl⟩ := declare_eq_ok_iff.1 hr
    refine ⟨by simp [h.level_eq], fun {d name} => ?_⟩
    rw [holds_cons, open_snoc, ← h.holds_iff, level_declare, h.level_eq]
    grind

/-- A token cannot be read if it violates the rules. -/
theorem Tracks.read_eq_error_iff (h : s.Tracks ts) :
    s.read t = .error e ↔ Violation (ts ++ [t]) ts.length e := by
  have hlast : (ts ++ [t])[ts.length]? = some t := by simp
  rw [violation_iff, hlast]
  simp only [visible_append (Nat.le_refl ts.length), repeated_append (Nat.le_refl ts.length),
    ← h.sees_iff, ← h.mem_innermost_iff]
  cases t with
  | enter | leave => simp [Scopes.read]
  | use name => by_cases hs : s.sees name = true <;> simp [Scopes.read, hs, @eq_comm _ _ e]
  | declare name =>
    by_cases hm : name ∈ s.innermost <;> simp [Scopes.read, Scopes.declare, hm, @eq_comm _ _ e]

/-- Reading tokens gives scopes that hold what they declare, if they are well scoped, and fails with
the first violation otherwise. -/
theorem readAll_top (ts : List ScopeToken) :
    (∃ s, top.readAll ts = .ok s ∧ s.Tracks ts ∧ WellScoped ts) ∨
      ∃ e, top.readAll ts = .error e ∧ FirstViolation ts e := by
  induction ts using List.reverseRec with
  | nil => exact .inl ⟨top, rfl, tracks_top, fun i e h => nomatch lt_length_of_violation h⟩
  | append_singleton ts t ih =>
    rw [readAll_append]
    rcases ih with ⟨s, hr, htracks, hwell⟩ | ⟨e, hr, i, hi, hfirst⟩
    · -- nothing is wrong in front of the new token
      have hbefore : ∀ j < ts.length, ∀ e, ¬ Violation (ts ++ [t]) j e := fun j hj e h =>
        hwell j e ((violation_append hj).1 h)
      rw [hr]
      change (∃ s', s.readAll [t] = .ok s' ∧ _) ∨ ∃ e, s.readAll [t] = .error e ∧ _
      rw [readAll_singleton]
      cases ht : s.read t with
      | error e =>
        exact .inr ⟨e, rfl, ts.length, htracks.read_eq_error_iff.1 ht, hbefore⟩
      | ok s' =>
        refine .inl ⟨s', rfl, htracks.read ht, fun j e h => ?_⟩
        have hj := lt_length_of_violation h
        rw [List.length_append, List.length_singleton, Nat.lt_succ_iff_lt_or_eq] at hj
        rcases hj with hj | rfl
        · exact hbefore j hj e h
        · rw [← htracks.read_eq_error_iff, ht] at h
          cases h
    · have hlt := lt_length_of_violation hi
      refine .inr ⟨e, by rw [hr]; rfl, i, (violation_append hlt).2 hi, fun j hj e' h => ?_⟩
      exact hfirst j hj e' ((violation_append (Nat.lt_trans hj hlt)).1 h)

end

end Scopes

namespace Program

variable (p : Program)

/-- A program has an entry point if one of its declarations is a function of that name. -/
theorem hasEntryPoint_iff :
    p.HasEntryPoint ↔ p.declarations.any (Decl.isFunction entryPoint) = true := by
  rw [List.any_eq_true]
  constructor
  · rintro ⟨returnType, params, body, h⟩
    exact ⟨_, h, by simp [Decl.isFunction, entryPoint]⟩
  · rintro ⟨d, h, hd⟩
    cases d with
    | global => cases hd
    | function returnType name params body =>
      obtain rfl : name = "main" := of_decide_eq_true hd
      exact ⟨_, _, _, h⟩

/-- The checker accepts exactly the programs that have an entry point and are well scoped. Of the
others it says that the entry point is missing, if it is, and what the first violation of the rules
of scoping is, if it is not. -/
theorem check_eq :
    (p.check = .ok () ↔ p.HasEntryPoint ∧ WellScoped p.scopeTokens) ∧
      ∀ e, p.check = .error e ↔
        ¬ p.HasEntryPoint ∧ e = .missingEntryPoint "main" ∨
          p.HasEntryPoint ∧ FirstViolation p.scopeTokens e := by
  by_cases hentry : p.HasEntryPoint
  · have hcheck : p.check = (Scopes.top.readAll p.scopeTokens).bind fun _ => .ok () := by
      rw [p.readAll_scopeTokens, check, p.hasEntryPoint_iff.1 hentry]
      rfl
    rcases Scopes.readAll_top p.scopeTokens with ⟨s, hr, -, hwell⟩ | ⟨e, hr, hfirst⟩
    · have hnone : ∀ e, ¬ FirstViolation p.scopeTokens e := fun e ⟨i, hi, _⟩ => hwell i e hi
      simp [hcheck, hr, hentry, hwell, hnone, Except.bind]
    · have hnot : ¬ WellScoped p.scopeTokens := fun h => h _ _ hfirst.choose_spec.1
      have hiff : ∀ e', e = e' ↔ FirstViolation p.scopeTokens e' := fun e' =>
        ⟨fun h => h ▸ hfirst, firstViolation_unique hfirst⟩
      simp [hcheck, hr, hentry, hnot, hiff, Except.bind]
  · have hcheck : p.check = .error (.missingEntryPoint "main") := by
      rw [check, Bool.eq_false_iff.2 (mt p.hasEntryPoint_iff.2 hentry)]
      rfl
    simp [hcheck, hentry, @eq_comm _ (ValidationError.missingEntryPoint _)]

end Program

end ShaderShrink

import ShaderShrink.Proofs.Job.Scope
import ShaderShrink.Proofs.Program.Fits
import ShaderShrink.Proofs.Program.Place

/-!
# What outlines say about names

The tokens that a program has for the checker of scopes are read off its outline
(`Program.scopeTokens_outline`): a node puts something around or behind what its parts say
(`Payload.frame`), and some places have a scope of their own (`Payload.placed`).

Tokens cover others if the others can be read wherever they can, to the same effect. What one part
says may be exchanged for what it covers: the whole outline then covers the outline with other parts
in the place of this one (`Outline.covers_splice`).
-/

namespace ShaderShrink

namespace ScopeToken

/-- Wherever the tokens `ts` can be read, the tokens `us` can be read too, and they leave the same
scopes behind. -/
def Covers (ts us : List ScopeToken) : Prop :=
  ∀ s s' : Scopes, s.readAll ts = .ok s' → s.readAll us = .ok s'

section
variable {ts us ts' us' : List ScopeToken}

/-- Tokens cover themselves. -/
theorem Covers.refl (ts : List ScopeToken) : Covers ts ts := fun _ _ h => h

/-- Tokens that are covered piece by piece are covered. -/
theorem Covers.append (h : Covers ts us) (h' : Covers ts' us') :
    Covers (ts ++ ts') (us ++ us') := by
  intro s s' hr
  rw [Scopes.readAll_append] at hr ⊢
  obtain ⟨s₁, hs₁, hr⟩ := Except.bind_eq_ok_iff.1 hr
  exact Except.bind_eq_ok_iff.2 ⟨s₁, h _ _ hs₁, h' _ _ hr⟩

/-- Tokens that are covered are covered in a scope of their own. -/
theorem Covers.inScope (h : Covers ts us) : Covers (inScope ts) (inScope us) :=
  (Covers.refl [.enter]).append (h.append (.refl [.leave]))

/-- Some of the uses of names can be left out. -/
theorem covers_of_sublist (hts : ∀ t ∈ ts, ∃ name, t = .use name) (h : us.Sublist ts) :
    Covers ts us := by
  have hread {s s' : Scopes} {name : String} (h : s.read (.use name) = .ok s') : s' = s := by
    rw [Scopes.read] at h
    split at h
    · cases h
      rfl
    · cases h
  induction h with
  | slnil => exact .refl []
  | @cons us ts t _ ih =>
    obtain ⟨⟨name, rfl⟩, hrest⟩ := List.forall_mem_cons.1 hts
    intro s s' hr
    obtain ⟨s₁, hs₁, hr⟩ := Except.bind_eq_ok_iff.1 hr
    rw [hread hs₁] at hr
    exact ih hrest s s' hr
  | cons_cons t _ ih => exact (Covers.refl [t]).append (ih (List.forall_mem_cons.1 hts).2)

end

end ScopeToken

open ScopeToken

/-! ## The tokens of an outline -/

namespace Payload

/-- What a node says about names, given what its parts say. -/
def frame (inside : List ScopeToken) : Payload → List ScopeToken
  | .ident name => .use name :: inside
  | .block => inScope inside
  | .var _ name | .global _ name => inside ++ [.declare name]
  | .function _ _ params => inScope (params.map (fun p => .declare p.name) ++ inside)
  | _ => inside

/-- What a part says about names at the place `i` of a node, given what it says on its own, and what
its parts say. The body of a function shares the scope of the parameters, and branches and loop
bodies have scopes of their own. -/
def placed (whole inside : List ScopeToken) : Payload → Nat → List ScopeToken
  | .function .., _ => inside
  | .ifElse, _ + 1 | .whileLoop, _ + 1 => inScope whole
  | _, _ => whole

/-- All places of a node are alike, and parts say there what they say on their own. -/
def IsFlat (data : Payload) : Prop := ∀ whole inside i, data.placed whole inside i = whole

/-- All places of an expression are alike. -/
theorem isFlat_of_expression {data : Payload} (h : data.category = .expression) : data.IsFlat := by
  cases data <;> first | exact fun _ _ _ => rfl | cases h

end Payload

namespace Outline

mutual

/-- What the parts of an outline say about names. -/
def insideTokens : Outline → List ScopeToken
  | .node data parts => insideTokensAll data 0 parts

/-- What some parts, the first of which is at the place `i` of a node, say about names. -/
def insideTokensAll (data : Payload) : Nat → List Outline → List ScopeToken
  | _, [] => []
  | i, t :: rest =>
    data.placed (t.data.frame t.insideTokens) t.insideTokens i ++ insideTokensAll data (i + 1) rest

end

/-- What an outline says about names. -/
def scopeTokens (t : Outline) : List ScopeToken := t.data.frame t.insideTokens

section
variable {t above old : Outline} {ts us stays : List Outline} {data : Payload} {i : Nat}
  {path : List Nat}

/-- The first of some parts comes first, at its place. -/
theorem insideTokensAll_cons : insideTokensAll data i (t :: ts) =
    data.placed t.scopeTokens t.insideTokens i ++ insideTokensAll data (i + 1) ts := rfl

/-- Parts come one after another, each at its place. -/
theorem insideTokensAll_append : insideTokensAll data i (ts ++ us) =
    insideTokensAll data i ts ++ insideTokensAll data (i + ts.length) us := by
  induction ts generalizing i with
  | nil => rfl
  | cons t rest ih =>
    rw [List.cons_append, insideTokensAll_cons, insideTokensAll_cons, ih, List.append_assoc,
      List.length_cons, Nat.add_assoc, Nat.add_comm 1]

/-- Where all places are alike, parts say what they say on their own. -/
theorem insideTokensAll_of_isFlat (h : data.IsFlat) :
    insideTokensAll data i ts = ts.flatMap scopeTokens := by
  induction ts generalizing i with
  | nil => rfl
  | cons t rest ih => rw [insideTokensAll_cons, h, ih, List.flatMap_cons]

/-- Where all places are alike, a node frames what its parts say on their own. -/
theorem scopeTokens_node (data : Payload) (h : data.IsFlat) :
    (node data ts).scopeTokens = data.frame (ts.flatMap scopeTokens) := by
  rw [← insideTokensAll_of_isFlat h]
  rfl

/-- A condition, and branches that have scopes of their own behind it. -/
theorem scopeTokens_branches (hdata : data = .ifElse ∨ data = .whileLoop) :
    (node data (t :: ts)).scopeTokens =
      t.scopeTokens ++ ts.flatMap fun u => inScope u.scopeTokens := by
  have hbranches (k : Nat) :
      insideTokensAll data (k + 1) ts = ts.flatMap fun u => inScope u.scopeTokens := by
    induction ts generalizing k with
    | nil => rfl
    | cons u rest ih =>
      rw [insideTokensAll_cons, ih, List.flatMap_cons]
      rcases hdata with rfl | rfl <;> rfl
  rcases hdata with rfl | rfl
  all_goals exact congrArg (t.scopeTokens ++ ·) (hbranches 0)

/-! ## Exchanging a part -/

/-- A node whose parts are covered is covered. -/
theorem covers_frame {inside inside' : List ScopeToken} (h : Covers inside inside') :
    Covers (data.frame inside) (data.frame inside') := by
  cases data with
  | ident name => exact (Covers.refl [.use name]).append h
  | block => exact h.inScope
  | var ty name | global ty name => exact h.append (.refl [.declare name])
  | function returnType name params => exact ((Covers.refl _).append h).inScope
  | _ => exact h

/-- A part is covered at its place if it is covered on its own, and so are its parts. -/
theorem covers_placed {whole whole' inside inside' : List ScopeToken} (hw : Covers whole whole')
    (hi : Covers inside inside') :
    Covers (data.placed whole inside i) (data.placed whole' inside' i) := by
  cases data with
  | function => exact hi
  | ifElse | whileLoop =>
    cases i with
    | zero => exact hw
    | succ => exact hw.inScope
  | _ => exact hw

/-- A part covers another one at its place if it does on its own: only the body of a function says
less at its place than on its own. -/
theorem covers_singleton (hslot : data.slotKind? i ≠ some .body)
    (h : Covers old.scopeTokens t.scopeTokens) :
    Covers (data.placed old.scopeTokens old.insideTokens i) (insideTokensAll data i [t]) := by
  rw [insideTokensAll_cons, insideTokensAll, List.append_nil]
  cases data with
  | function => exact absurd rfl hslot
  | ifElse | whileLoop =>
    cases i with
    | zero => exact h
    | succ => exact h.inScope
  | _ => exact h

/-- The whole outline covers the one in which a part has given way to others that it covers at its
place. Where there are more or fewer parts than before, all places have to be alike. -/
theorem covers_splice (stays : List Outline) (habove : t.part? path = some above)
    (hold : above.parts[i]? = some old)
    (hlength : stays.length = 1 ∨ above.data.IsFlat)
    (h : Covers (above.data.placed old.scopeTokens old.insideTokens i)
      (insideTokensAll above.data i stays)) :
    Covers t.insideTokens (t.splice stays i path).insideTokens := by
  induction path generalizing t with
  | nil =>
    cases habove
    obtain ⟨data, parts⟩ := above
    have hold : parts[i]? = some old := hold
    have hlen : (parts.take i).length = i :=
      List.length_take_of_le (Nat.le_of_lt (List.getElem?_eq_some_iff.1 hold).1)
    have hbehind : insideTokensAll data (i + 1) (parts.drop (i + 1)) =
        insideTokensAll data (i + stays.length) (parts.drop (i + 1)) := by
      rcases hlength with hone | hflat
      · rw [hone]
      · have hflat : data.IsFlat := hflat
        rw [insideTokensAll_of_isFlat hflat, insideTokensAll_of_isFlat hflat]
    have hbefore : insideTokensAll data 0 parts =
        insideTokensAll data 0 (parts.take i) ++ (data.placed old.scopeTokens old.insideTokens i ++
          insideTokensAll data (i + 1) (parts.drop (i + 1))) := by
      conv_lhs => rw [eq_take_append_drop hold]
      rw [insideTokensAll_append, insideTokensAll_cons, hlen, Nat.zero_add]
    have hafter : insideTokensAll data 0 (parts.take i ++ stays ++ parts.drop (i + 1)) =
        insideTokensAll data 0 (parts.take i) ++ (insideTokensAll data i stays ++
          insideTokensAll data (i + 1) (parts.drop (i + 1))) := by
      rw [List.append_assoc, insideTokensAll_append, insideTokensAll_append, hlen, Nat.zero_add,
        hbehind]
    rw [splice, insideTokens, insideTokens, hbefore, hafter]
    exact (Covers.refl _).append (h.append (.refl _))
  | cons k path ih =>
    obtain ⟨data, parts⟩ := t
    obtain ⟨u, hu, habove⟩ := part?_cons_eq_some_iff.1 habove
    have hu : parts[k]? = some u := hu
    have hinside := ih habove
    have hwhole : Covers u.scopeTokens (u.splice stays i path).scopeTokens := by
      rw [scopeTokens, scopeTokens, data_splice]
      exact covers_frame hinside
    rw [splice, insideTokens, insideTokens, modify_eq_take_append_drop _ hu]
    conv_lhs => rw [eq_take_append_drop hu]
    simp only [insideTokensAll_append, insideTokensAll_cons]
    exact (Covers.refl _).append ((covers_placed hwhole hinside).append (.refl _))

end

end Outline

/-! ## The tokens of a program -/

open Outline (scopeTokens_node scopeTokens_branches insideTokensAll insideTokensAll_of_isFlat)

mutual

/-- Expressions declare nothing. -/
theorem Expr.eq_use_of_mem : ∀ (e : Expr), ∀ t ∈ e.scopeTokens, ∃ name, t = ScopeToken.use name
  | .int _, _, h | .float _, _, h | .bool _, _, h => nomatch h
  | .ident name, _, h => ⟨name, List.mem_singleton.1 h⟩
  | .unary _ e, t, h | .paren e, t, h => Expr.eq_use_of_mem e t h
  | .binary _ l r, t, h => (List.mem_append.1 h).elim (Expr.eq_use_of_mem l t)
      (Expr.eq_use_of_mem r t)
  | .call _ args, t, h => Expr.eq_use_of_memAll args t h
  | .ternary c x y, t, h => (List.mem_append.1 h).elim (Expr.eq_use_of_mem c t) fun h =>
      (List.mem_append.1 h).elim (Expr.eq_use_of_mem x t) (Expr.eq_use_of_mem y t)

/-- Expressions side by side declare nothing either. -/
theorem Expr.eq_use_of_memAll : ∀ (es : List Expr), ∀ t ∈ Expr.scopeTokensAll es,
    ∃ name, t = ScopeToken.use name
  | e :: rest, t, h => (List.mem_append.1 h).elim (Expr.eq_use_of_mem e t)
      (Expr.eq_use_of_memAll rest t)

end

mutual

/-- The checker finds the tokens of an expression in its outline. -/
theorem Expr.scopeTokens_outline : ∀ e : Expr, e.outline.scopeTokens = e.scopeTokens
  | .int _ | .float _ | .bool _ | .ident _ => rfl
  | .unary op e => by
    rw [Expr.outline, scopeTokens_node (.unary op) fun _ _ _ => rfl]
    simp [Payload.frame, Expr.scopeTokens, e.scopeTokens_outline]
  | .paren e => by
    rw [Expr.outline, scopeTokens_node .paren fun _ _ _ => rfl]
    simp [Payload.frame, Expr.scopeTokens, e.scopeTokens_outline]
  | .binary op l r => by
    rw [Expr.outline, scopeTokens_node (.binary op) fun _ _ _ => rfl]
    simp [Payload.frame, Expr.scopeTokens, l.scopeTokens_outline, r.scopeTokens_outline]
  | .call callee args => by
    rw [Expr.outline, scopeTokens_node (.call callee) fun _ _ _ => rfl]
    exact Expr.scopeTokens_outlineAll args
  | .ternary c t f => by
    rw [Expr.outline, scopeTokens_node .ternary fun _ _ _ => rfl]
    simp [Payload.frame, Expr.scopeTokens, c.scopeTokens_outline, t.scopeTokens_outline,
      f.scopeTokens_outline]

/-- The checker finds the tokens of expressions in their outlines. -/
theorem Expr.scopeTokens_outlineAll : ∀ es : List Expr,
    (Expr.outlineAll es).flatMap Outline.scopeTokens = Expr.scopeTokensAll es
  | [] => rfl
  | e :: rest => by
    rw [Expr.outlineAll, List.flatMap_cons, e.scopeTokens_outline,
      Expr.scopeTokens_outlineAll rest, Expr.scopeTokensAll]

end

/-- The checker finds the tokens of an expression that may be missing in its outline. -/
theorem Expr.scopeTokens_outlineOption (e : Option Expr) :
    (Expr.outlineOption e).flatMap Outline.scopeTokens = Expr.scopeTokensOption e := by
  cases e with
  | none => rfl
  | some e => exact (List.append_nil _).trans e.scopeTokens_outline

mutual

/-- The checker finds the tokens of a statement in its outline. -/
theorem Stmt.scopeTokens_outline : ∀ s : Stmt, s.outline.scopeTokens = s.scopeTokens
  | .block body => by
    rw [Stmt.outline, scopeTokens_node .block fun _ _ _ => rfl,
      Stmt.scopeTokens_outlineAll body]
    rfl
  | .expr e => by
    rw [Stmt.outline, scopeTokens_node .exprStmt fun _ _ _ => rfl]
    exact (List.append_nil _).trans e.scopeTokens_outline
  | .var ty name init => by
    rw [Stmt.outline, scopeTokens_node (.var ty name) fun _ _ _ => rfl,
      Expr.scopeTokens_outlineOption]
    rfl
  | .ret value => by
    rw [Stmt.outline, scopeTokens_node .ret fun _ _ _ => rfl,
      Expr.scopeTokens_outlineOption]
    rfl
  | .ifElse c t f => by
    rw [Stmt.outline, scopeTokens_branches (.inl rfl), List.flatMap_cons, c.scopeTokens_outline,
      t.scopeTokens_outline, Stmt.scopeTokens_outlineOption f, Stmt.scopeTokens]
  | .whileLoop c b => by
    rw [Stmt.outline, scopeTokens_branches (.inr rfl), List.flatMap_singleton,
      c.scopeTokens_outline, b.scopeTokens_outline, Stmt.scopeTokens]
  | .discard | .empty => rfl

/-- The checker finds the tokens of statements in their outlines. -/
theorem Stmt.scopeTokens_outlineAll : ∀ ss : List Stmt,
    (Stmt.outlineAll ss).flatMap Outline.scopeTokens = Stmt.scopeTokensAll ss
  | [] => rfl
  | s :: rest => by
    rw [Stmt.outlineAll, List.flatMap_cons, s.scopeTokens_outline,
      Stmt.scopeTokens_outlineAll rest, Stmt.scopeTokensAll]

/-- The checker finds the tokens of a branch that may be missing in its outline. -/
theorem Stmt.scopeTokens_outlineOption : ∀ s : Option Stmt,
    (Stmt.outlineOption s).flatMap (fun u => ScopeToken.inScope u.scopeTokens) =
      Stmt.scopeTokensOption s
  | none => rfl
  | some s => by
    rw [Stmt.outlineOption, List.flatMap_singleton, s.scopeTokens_outline, Stmt.scopeTokensOption]

end

/-- The checker finds the tokens of a declaration in its outline. -/
theorem Decl.scopeTokens_outline (d : Decl) : d.outline.scopeTokens = d.scopeTokens := by
  cases d with
  | global ty name init =>
    rw [Decl.outline, scopeTokens_node (.global ty name) fun _ _ _ => rfl,
      Expr.scopeTokens_outlineOption]
    rfl
  | function returnType name params body =>
    have hbody : insideTokensAll .block 0 (Stmt.outlineAll body) = Stmt.scopeTokensAll body := by
      rw [insideTokensAll_of_isFlat fun _ _ _ => rfl, Stmt.scopeTokens_outlineAll]
    rw [Decl.scopeTokens, ← hbody, ← List.append_nil (insideTokensAll ..)]
    rfl

/-- The checker finds the tokens of a program in its outline. -/
theorem Program.scopeTokens_outline (p : Program) : p.outline.scopeTokens = p.scopeTokens := by
  rw [Program.outline, scopeTokens_node .unit fun _ _ _ => rfl, List.flatMap_map]
  simp only [Decl.scopeTokens_outline]
  rfl

end ShaderShrink

import Mathlib.Data.Set.List
import ShaderShrink.Proofs.Program.Outline

/-!
# The outlines of programs are those that fit

`Program.fits_outline` says that every node of the outline of a program has the parts that its
payload asks for, and `Outline.Fits.exists_program` that an outline with this property and a unit on
top is the outline of a program. So an arena that keeps to the shapes of its payloads can be read
back as a program, whatever was done to it.
-/

namespace ShaderShrink

/-- An expression has places for expressions only. -/
theorem Payload.slot_of_expression {data : Payload} (h : data.category = .expression) {i : Nat}
    {slot : SlotKind} (hs : data.slotKind? i = some slot) : slot = .expression := by
  cases data <;> simp_all [category, slotKind?]

namespace Outline

section
variable {data : Payload} {parts : List Outline} {t : Outline} {slot : SlotKind} {i : Nat}

/-- An outline fits if its top node has a number of parts that it admits, and each part is taken at
its place and fits. -/
theorem fits_iff : (node data parts).Fits ↔ data.admits parts.length = true ∧
    ∀ i t, parts[i]? = some t → TakenAt data i t ∧ t.Fits := by
  rw [Fits, allFit_iff]
  refine and_congr_right fun _ => ?_
  constructor
  · rintro ⟨hs, hf⟩ i t ht
    exact ⟨hs i t ht, hf t (List.mem_of_getElem? ht)⟩
  · intro h
    constructor
    · intro i t ht
      exact (h i t ht).1
    · intro t ht
      obtain ⟨i, hi⟩ := List.mem_iff_getElem?.1 ht
      exact (h i t hi).2

/-- A node whose places are all alike fits if its parts are taken there and fit. -/
theorem fits_of_uniform (slot : SlotKind) (ha : data.admits parts.length = true)
    (hs : ∀ i, data.slotKind? i = some slot)
    (hp : ∀ t ∈ parts, slot.accepts t.data = true ∧ t.Fits) : (node data parts).Fits := by
  refine fits_iff.2 ⟨ha, ?_⟩
  intro i t ht
  obtain ⟨ht₁, ht₂⟩ := hp t (List.mem_of_getElem? ht)
  exact ⟨⟨slot, hs i, ht₁⟩, ht₂⟩

/-- A node without parts fits if it admits none. -/
theorem fits_leaf (ha : data.admits 0 = true) : (node data []).Fits :=
  fits_iff.2 ⟨ha, nofun⟩

/-- Where all places are alike, all parts are taken by such a place. -/
theorem Fits.uniform (h : (node data parts).Fits)
    (hd : ∀ {i slot'}, data.slotKind? i = some slot' → slot' = slot) :
    ∀ t ∈ parts, t.Fits ∧ slot.accepts t.data = true := by
  intro t ht
  obtain ⟨i, hi⟩ := List.mem_iff_getElem?.1 ht
  obtain ⟨⟨slot', hs, ha⟩, hf⟩ := (fits_iff.1 h).2 i t hi
  rw [hd hs] at ha
  exact ⟨hf, ha⟩

/-- Where only expressions are taken, all parts are expressions. -/
theorem Fits.expressions (h : (node data parts).Fits)
    (hd : ∀ {i slot}, data.slotKind? i = some slot → slot = .expression) :
    ∀ t ∈ parts, t.Fits ∧ t.data.category = .expression := by
  intro t ht
  obtain ⟨hf, ha⟩ := h.uniform hd t ht
  exact ⟨hf, of_decide_eq_true ha⟩

end

end Outline

open Outline

/-! ## Outlines of programs fit -/

/-- Where an expression is asked for, the outline of one is taken. -/
theorem Expr.accepts_outline (e : Expr) : SlotKind.expression.accepts e.outline.data = true := by
  cases e <;> rfl

/-- Where a statement is asked for, the outline of one is taken. -/
theorem Stmt.accepts_outline (s : Stmt) : SlotKind.statement.accepts s.outline.data = true := by
  cases s <;> rfl

/-- Where a declaration is asked for, the outline of one is taken. -/
theorem Decl.accepts_outline (d : Decl) : SlotKind.declaration.accepts d.outline.data = true := by
  cases d <;> rfl

mutual

/-- The outline of an expression fits. -/
theorem Expr.fits_outline : ∀ e : Expr, e.outline.Fits
  | .int _ | .float _ | .bool _ | .ident _ => fits_leaf rfl
  | .unary _ e | .paren e =>
    fits_of_uniform _ rfl (fun _ => rfl) (by simp [e.accepts_outline, e.fits_outline])
  | .binary _ l r => fits_of_uniform _ rfl (fun _ => rfl) (by
    simp [l.accepts_outline, l.fits_outline, r.accepts_outline, r.fits_outline])
  | .call _ args => fits_of_uniform _ rfl (fun _ => rfl) (Expr.fits_outlineAll args)
  | .ternary c t f => fits_of_uniform _ rfl (fun _ => rfl) (by
    simp [c.accepts_outline, c.fits_outline, t.accepts_outline, t.fits_outline, f.accepts_outline,
      f.fits_outline])

/-- The outlines of expressions are those of expressions, and they fit. -/
theorem Expr.fits_outlineAll : ∀ es : List Expr, ∀ t ∈ Expr.outlineAll es,
    SlotKind.expression.accepts t.data = true ∧ t.Fits
  | [] => nofun
  | e :: rest => by
    intro t ht
    rcases List.mem_cons.1 ht with rfl | ht
    · exact ⟨e.accepts_outline, e.fits_outline⟩
    · exact Expr.fits_outlineAll rest t ht

end

/-- A node that may have an expression fits if there is one, and if there is none. -/
theorem Expr.fits_outlineOption {data : Payload} (e : Option Expr)
    (h₀ : data.admits 0 = true) (h₁ : data.admits 1 = true)
    (hs : ∀ i, data.slotKind? i = some .expression) :
    (Outline.node data (Expr.outlineOption e)).Fits := by
  cases e with
  | none => exact fits_leaf h₀
  | some e =>
    show (Outline.node data [e.outline]).Fits
    refine fits_of_uniform .expression h₁ hs ?_
    intro t ht
    rw [List.mem_singleton.1 ht]
    exact ⟨e.accepts_outline, e.fits_outline⟩

/-- A node whose first place is for an expression, while the others are for statements. -/
theorem Outline.fits_of_branches {data : Payload} {c : Expr} {ss : List Outline}
    (ha : data.admits (ss.length + 1) = true) (h₀ : data.slotKind? 0 = some .expression)
    (hs : ∀ i, data.slotKind? (i + 1) = some .statement)
    (hp : ∀ t ∈ ss, SlotKind.statement.accepts t.data = true ∧ t.Fits) :
    (Outline.node data (c.outline :: ss)).Fits := by
  refine fits_iff.2 ⟨ha, ?_⟩
  intro i t ht
  cases i with
  | zero =>
    cases ht
    exact ⟨⟨_, h₀, c.accepts_outline⟩, c.fits_outline⟩
  | succ i =>
    obtain ⟨ht₁, ht₂⟩ := hp t (List.mem_of_getElem? ht)
    exact ⟨⟨_, hs i, ht₁⟩, ht₂⟩

mutual

/-- The outline of a statement fits. -/
theorem Stmt.fits_outline : ∀ s : Stmt, s.outline.Fits
  | .block body => fits_of_uniform _ rfl (fun _ => rfl) (Stmt.fits_outlineAll body)
  | .expr e => fits_of_uniform _ rfl (fun _ => rfl) (by simp [e.accepts_outline, e.fits_outline])
  | .var _ _ init | .ret init => Expr.fits_outlineOption init rfl rfl fun _ => rfl
  | .ifElse _ t none => fits_of_branches rfl rfl (fun _ => rfl) (by
    simp [Stmt.outlineOption, t.accepts_outline, t.fits_outline])
  | .ifElse _ t (some f) => fits_of_branches rfl rfl (fun _ => rfl) (by
    simp [Stmt.outlineOption, t.accepts_outline, t.fits_outline, f.accepts_outline, f.fits_outline])
  | .whileLoop _ b => fits_of_branches rfl rfl (fun _ => rfl) (by
    simp [b.accepts_outline, b.fits_outline])
  | .discard | .empty => fits_leaf rfl

/-- The outlines of statements are those of statements, and they fit. -/
theorem Stmt.fits_outlineAll : ∀ ss : List Stmt, ∀ t ∈ Stmt.outlineAll ss,
    SlotKind.statement.accepts t.data = true ∧ t.Fits
  | [] => nofun
  | s :: rest => by
    intro t ht
    rcases List.mem_cons.1 ht with rfl | ht
    · exact ⟨s.accepts_outline, s.fits_outline⟩
    · exact Stmt.fits_outlineAll rest t ht

end

/-- The outline of a declaration fits. -/
theorem Decl.fits_outline (d : Decl) : d.outline.Fits := by
  cases d with
  | global ty name init => exact Expr.fits_outlineOption init rfl rfl fun _ => rfl
  | function returnType name params body =>
    refine fits_of_uniform .body rfl (fun _ => rfl) ?_
    intro t ht
    rw [List.mem_singleton.1 ht]
    exact ⟨rfl, fits_of_uniform _ rfl (fun _ => rfl) (Stmt.fits_outlineAll body)⟩

/-- Every node of the outline of a program has the parts that its payload asks for. -/
theorem Program.fits_outline (p : Program) : p.outline.Fits := by
  refine fits_of_uniform .declaration rfl (fun _ => rfl) ?_
  intro t ht
  obtain ⟨d, -, rfl⟩ := List.mem_map.1 ht
  exact ⟨d.accepts_outline, d.fits_outline⟩

/-! ## What fits is an outline -/

mutual

/-- An outline that fits is one of an expression if its payload is. -/
theorem Outline.Fits.exists_expr : ∀ {t : Outline}, t.Fits → t.data.category = .expression →
    ∃ e : Expr, e.outline = t
  | .node data parts, h, hd => by
    obtain ⟨es, rfl⟩ := Outline.Fits.exists_exprs (h.expressions (Payload.slot_of_expression hd))
    have ha := (fits_iff.1 h).1
    cases data with
    | int value => match es, ha with | [], _ => exact ⟨.int value, rfl⟩
    | float text => match es, ha with | [], _ => exact ⟨.float text, rfl⟩
    | bool value => match es, ha with | [], _ => exact ⟨.bool value, rfl⟩
    | ident name => match es, ha with | [], _ => exact ⟨.ident name, rfl⟩
    | unary op => match es, ha with | [e], _ => exact ⟨.unary op e, rfl⟩
    | paren => match es, ha with | [e], _ => exact ⟨.paren e, rfl⟩
    | binary op => match es, ha with | [l, r], _ => exact ⟨.binary op l r, rfl⟩
    | ternary => match es, ha with | [c, t, f], _ => exact ⟨.ternary c t f, rfl⟩
    | call callee => exact ⟨.call callee es, rfl⟩
    | _ => cases hd

/-- Outlines that fit, with expressions on top, are those of expressions. -/
theorem Outline.Fits.exists_exprs : ∀ {ts : List Outline},
    (∀ t ∈ ts, t.Fits ∧ t.data.category = .expression) → ∃ es, Expr.outlineAll es = ts
  | [], _ => ⟨[], rfl⟩
  | t :: rest, h => by
    obtain ⟨hf, hd⟩ := h t List.mem_cons_self
    obtain ⟨e, rfl⟩ := hf.exists_expr hd
    obtain ⟨es, rfl⟩ := Outline.Fits.exists_exprs fun t ht => h t (List.mem_cons_of_mem _ ht)
    exact ⟨e :: es, rfl⟩

end

/-- At most one expression is an expression that may be absent. -/
theorem Outline.exists_outlineOption {ts : List Outline} (hl : ts.length ≤ 1)
    (h : ∀ t ∈ ts, t.Fits ∧ t.data.category = .expression) :
    ∃ e, Expr.outlineOption e = ts := by
  obtain ⟨es, rfl⟩ := Outline.Fits.exists_exprs h
  match es, hl with
  | [], _ => exact ⟨none, rfl⟩
  | [e], _ => exact ⟨some e, rfl⟩
  | _ :: _ :: _, hl => exact absurd hl (by simp [Expr.outlineAll])

/-- The parts of a node whose first place is for an expression and whose others are for
statements. -/
theorem Outline.Fits.branches {data : Payload} {c : Outline} {ts : List Outline}
    (h : (node data (c :: ts)).Fits) (h₀ : data.slotKind? 0 = some .expression)
    (hs : ∀ i, data.slotKind? (i + 1) = some .statement) :
    (∃ e : Expr, e.outline = c) ∧ ∀ t ∈ ts, t.Fits ∧ t.data.category = .statement := by
  obtain ⟨-, hp⟩ := fits_iff.1 h
  constructor
  · obtain ⟨⟨slot, hs₀, ha⟩, hf⟩ := hp 0 c rfl
    rw [h₀] at hs₀
    cases hs₀
    exact hf.exists_expr (of_decide_eq_true ha)
  · intro t ht
    obtain ⟨i, hi⟩ := List.mem_iff_getElem?.1 ht
    obtain ⟨⟨slot, hsi, ha⟩, hf⟩ := hp (i + 1) t hi
    rw [hs i] at hsi
    cases hsi
    exact ⟨hf, of_decide_eq_true ha⟩

mutual

/-- An outline that fits is one of a statement if its payload is. -/
theorem Outline.Fits.exists_stmt : ∀ {t : Outline}, t.Fits → t.data.category = .statement →
    ∃ s : Stmt, s.outline = t
  | .node .block parts, h, _ => by
    obtain ⟨ss, rfl⟩ := Outline.Fits.exists_stmts fun t ht => by
      obtain ⟨hf, ha⟩ := h.uniform (fun hs => by cases hs; rfl) t ht
      exact ⟨hf, of_decide_eq_true ha⟩
    exact ⟨.block ss, rfl⟩
  | .node .exprStmt parts, h, _ => by
    obtain ⟨es, rfl⟩ := Outline.Fits.exists_exprs (h.expressions fun hs => by cases hs; rfl)
    match es, (fits_iff.1 h).1 with
    | [e], _ => exact ⟨.expr e, rfl⟩
  | .node (.var ty name) parts, h, _ => by
    obtain ⟨e, rfl⟩ := exists_outlineOption (of_decide_eq_true (fits_iff.1 h).1)
      (h.expressions fun hs => by cases hs; rfl)
    exact ⟨.var ty name e, rfl⟩
  | .node .ret parts, h, _ => by
    obtain ⟨e, rfl⟩ := exists_outlineOption (of_decide_eq_true (fits_iff.1 h).1)
      (h.expressions fun hs => by cases hs; rfl)
    exact ⟨.ret e, rfl⟩
  | .node .ifElse (c :: parts), h, _ => by
    obtain ⟨⟨c, rfl⟩, hs⟩ := h.branches rfl fun _ => rfl
    obtain ⟨ss, rfl⟩ := Outline.Fits.exists_stmts hs
    match ss, (fits_iff.1 h).1 with
    | [t], _ => exact ⟨.ifElse c t none, rfl⟩
    | [t, f], _ => exact ⟨.ifElse c t (some f), rfl⟩
  | .node .whileLoop (c :: parts), h, _ => by
    obtain ⟨⟨c, rfl⟩, hs⟩ := h.branches rfl fun _ => rfl
    obtain ⟨ss, rfl⟩ := Outline.Fits.exists_stmts hs
    match ss, (fits_iff.1 h).1 with
    | [b], _ => exact ⟨.whileLoop c b, rfl⟩
  | .node .discard [], _, _ => ⟨.discard, rfl⟩
  | .node .empty [], _, _ => ⟨.empty, rfl⟩

/-- Outlines that fit, with statements on top, are those of statements. -/
theorem Outline.Fits.exists_stmts : ∀ {ts : List Outline},
    (∀ t ∈ ts, t.Fits ∧ t.data.category = .statement) → ∃ ss, Stmt.outlineAll ss = ts
  | [], _ => ⟨[], rfl⟩
  | t :: rest, h => by
    obtain ⟨hf, hd⟩ := h t List.mem_cons_self
    obtain ⟨s, rfl⟩ := hf.exists_stmt hd
    obtain ⟨ss, rfl⟩ := Outline.Fits.exists_stmts fun t ht => h t (List.mem_cons_of_mem _ ht)
    exact ⟨s :: ss, rfl⟩

end

/-- An outline that fits is one of a declaration if its payload is. -/
theorem Outline.Fits.exists_decl : ∀ {t : Outline}, t.Fits → t.data.category = .declaration →
    ∃ d : Decl, d.outline = t
  | .node (.global ty name) parts, h, _ => by
    obtain ⟨e, rfl⟩ := exists_outlineOption (of_decide_eq_true (fits_iff.1 h).1)
      (h.expressions fun hs => by cases hs; rfl)
    exact ⟨.global ty name e, rfl⟩
  | .node (.function returnType name params) parts, h, _ => by
    obtain ⟨ha, hp⟩ := fits_iff.1 h
    match parts, ha with
    | [.node data body], _ =>
      -- the place of a body takes blocks only
      obtain ⟨⟨slot, hs, hb⟩, hf⟩ := hp 0 _ rfl
      cases hs
      obtain rfl : data = .block := of_decide_eq_true hb
      obtain ⟨s, hs⟩ := hf.exists_stmt rfl
      cases s with
      | block ss =>
        rw [Stmt.outline, node.injEq] at hs
        exact ⟨.function returnType name params ss, by rw [Decl.outline, hs.2]⟩
      | _ => cases hs

/-- An outline that fits and has a unit on top is the outline of a program. -/
theorem Outline.Fits.exists_program {t : Outline} (h : t.Fits) (hd : t.data = .unit) :
    ∃ p : Program, p.outline = t := by
  obtain ⟨data, parts⟩ := t
  cases hd
  have hparts : parts ∈ Set.range (List.map Decl.outline) := by
    rw [Set.range_list_map]
    intro t ht
    obtain ⟨hf, ha⟩ := h.uniform (fun hs => by cases hs; rfl) t ht
    exact hf.exists_decl (of_decide_eq_true ha)
  obtain ⟨ds, rfl⟩ := hparts
  exact ⟨⟨ds⟩, rfl⟩

end ShaderShrink

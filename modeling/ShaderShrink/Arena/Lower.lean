import ShaderShrink.Arena.Edit
import ShaderShrink.Arena.Layout

/-!
# Lowering a program

How the arena of a program is built: node after node is pushed, and each one is put at the end of
the list of children of its parent, which is in the arena already. What comes out is the arena that
`Arena.ofProgram` writes down at once.
-/

namespace ShaderShrink

/-- Makes a node without children, the last child of `parent` if there is one. The second component
is its number. -/
def Arena.push (a : Arena) (data : Payload) (parent : Option NodeId) : Arena × NodeId :=
  let id := a.size
  let grown : Arena := ⟨a.nodes.push ⟨data, [], parent⟩⟩
  match parent with
  | none => (grown, id)
  | some parent =>
    (grown.modify parent fun node => { node with children := node.children ++ [id] }, id)

mutual

/-- Pushes the nodes of an expression below `parent`. -/
def Expr.lower (parent : NodeId) : Expr → Arena → Arena
  | .int value, a => (a.push (.int value) (some parent)).1
  | .float text, a => (a.push (.float text) (some parent)).1
  | .bool value, a => (a.push (.bool value) (some parent)).1
  | .ident name, a => (a.push (.ident name) (some parent)).1
  | .unary op e, a =>
    let (a, id) := a.push (.unary op) (some parent)
    e.lower id a
  | .binary op l r, a =>
    let (a, id) := a.push (.binary op) (some parent)
    r.lower id (l.lower id a)
  | .call callee args, a =>
    let (a, id) := a.push (.call callee) (some parent)
    Expr.lowerAll id args a
  | .paren e, a =>
    let (a, id) := a.push .paren (some parent)
    e.lower id a
  | .ternary c t f, a =>
    let (a, id) := a.push .ternary (some parent)
    f.lower id (t.lower id (c.lower id a))

/-- Pushes the nodes of some expressions below `parent`. -/
def Expr.lowerAll (parent : NodeId) : List Expr → Arena → Arena
  | [], a => a
  | e :: rest, a => Expr.lowerAll parent rest (e.lower parent a)

end

/-- Pushes the nodes of an expression that may be absent. -/
def Expr.lowerOption (parent : NodeId) (e : Option Expr) (a : Arena) : Arena :=
  e.elim a (·.lower parent a)

mutual

/-- Pushes the nodes of a statement below `parent`. -/
def Stmt.lower (parent : NodeId) : Stmt → Arena → Arena
  | .block body, a =>
    let (a, id) := a.push .block (some parent)
    Stmt.lowerAll id body a
  | .expr e, a =>
    let (a, id) := a.push .exprStmt (some parent)
    e.lower id a
  | .var ty name init, a =>
    let (a, id) := a.push (.var ty name) (some parent)
    Expr.lowerOption id init a
  | .ifElse c t f, a =>
    let (a, id) := a.push .ifElse (some parent)
    Stmt.lowerOption id f (t.lower id (c.lower id a))
  | .whileLoop c b, a =>
    let (a, id) := a.push .whileLoop (some parent)
    b.lower id (c.lower id a)
  | .ret value, a =>
    let (a, id) := a.push .ret (some parent)
    Expr.lowerOption id value a
  | .discard, a => (a.push .discard (some parent)).1
  | .empty, a => (a.push .empty (some parent)).1

/-- Pushes the nodes of some statements below `parent`. -/
def Stmt.lowerAll (parent : NodeId) : List Stmt → Arena → Arena
  | [], a => a
  | s :: rest, a => Stmt.lowerAll parent rest (s.lower parent a)

/-- Pushes the nodes of a statement that may be absent. -/
def Stmt.lowerOption (parent : NodeId) : Option Stmt → Arena → Arena
  | none, a => a
  | some s, a => s.lower parent a

end

/-- Pushes the nodes of a declaration below `parent`. -/
def Decl.lower (parent : NodeId) : Decl → Arena → Arena
  | .global ty name init, a =>
    let (a, id) := a.push (.global ty name) (some parent)
    Expr.lowerOption id init a
  | .function returnType name params body, a =>
    let (a, id) := a.push (.function returnType name params) (some parent)
    let (a, block) := a.push .block (some id)
    Stmt.lowerAll block body a

/-- Builds the arena of a program. -/
def Program.lower (p : Program) : Arena :=
  let (a, root) := Arena.push ⟨#[]⟩ .unit none
  p.declarations.foldl (fun a d => d.lower root a) a

end ShaderShrink

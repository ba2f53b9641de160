import ShaderShrink.Arena.Basic

/-!
# The arena of a program

The nodes of a program are numbered in preorder: a node comes before its children, and everything
below a child before the next child. So the nodes of a term fill the numbers from its own number on,
and the number of a child is the number of its node plus one plus the sizes of the children before
it.
-/

namespace ShaderShrink

mutual

/-- The nodes of an expression that is numbered `id` and lies below `parent`. -/
def Expr.layout (parent id : NodeId) : Expr → List Node
  | .int value => [⟨.int value, [], some parent⟩]
  | .float text => [⟨.float text, [], some parent⟩]
  | .bool value => [⟨.bool value, [], some parent⟩]
  | .ident name => [⟨.ident name, [], some parent⟩]
  | .unary op e => ⟨.unary op, [id + 1], some parent⟩ :: e.layout id (id + 1)
  | .binary op l r =>
    ⟨.binary op, [id + 1, id + 1 + l.size], some parent⟩
      :: (l.layout id (id + 1) ++ r.layout id (id + 1 + l.size))
  | .call callee args =>
    ⟨.call callee, Expr.positions (id + 1) args, some parent⟩ :: Expr.layoutAll id (id + 1) args
  | .paren e => ⟨.paren, [id + 1], some parent⟩ :: e.layout id (id + 1)
  | .ternary c t f =>
    ⟨.ternary, [id + 1, id + 1 + c.size, id + 1 + c.size + t.size], some parent⟩
      :: (c.layout id (id + 1) ++ t.layout id (id + 1 + c.size)
        ++ f.layout id (id + 1 + c.size + t.size))

/-- The nodes of some expressions, numbered from `id` on. -/
def Expr.layoutAll (parent id : NodeId) : List Expr → List Node
  | [] => []
  | e :: rest => e.layout parent id ++ Expr.layoutAll parent (id + e.size) rest

/-- The numbers of some expressions that are laid out from `id` on. -/
def Expr.positions (id : NodeId) : List Expr → List NodeId
  | [] => []
  | e :: rest => id :: Expr.positions (id + e.size) rest

end

/-- The nodes of an expression that may be absent. -/
def Expr.layoutOption (parent id : NodeId) (e : Option Expr) : List Node :=
  e.elim [] (·.layout parent id)

/-- The number of an expression that may be absent. -/
def Expr.positionOption (id : NodeId) (e : Option Expr) : List NodeId := e.elim [] fun _ => [id]

mutual

/-- The nodes of a statement that is numbered `id` and lies below `parent`. -/
def Stmt.layout (parent id : NodeId) : Stmt → List Node
  | .block body =>
    ⟨.block, Stmt.positions (id + 1) body, some parent⟩ :: Stmt.layoutAll id (id + 1) body
  | .expr e => ⟨.exprStmt, [id + 1], some parent⟩ :: e.layout id (id + 1)
  | .var ty name init =>
    ⟨.var ty name, Expr.positionOption (id + 1) init, some parent⟩
      :: Expr.layoutOption id (id + 1) init
  | .ifElse c t f =>
    ⟨.ifElse, (id + 1) :: (id + 1 + c.size) :: Stmt.positionOption (id + 1 + c.size + t.size) f,
        some parent⟩
      :: (c.layout id (id + 1) ++ t.layout id (id + 1 + c.size)
        ++ Stmt.layoutOption id (id + 1 + c.size + t.size) f)
  | .whileLoop c b =>
    ⟨.whileLoop, [id + 1, id + 1 + c.size], some parent⟩
      :: (c.layout id (id + 1) ++ b.layout id (id + 1 + c.size))
  | .ret value =>
    ⟨.ret, Expr.positionOption (id + 1) value, some parent⟩ :: Expr.layoutOption id (id + 1) value
  | .discard => [⟨.discard, [], some parent⟩]
  | .empty => [⟨.empty, [], some parent⟩]

/-- The nodes of some statements, numbered from `id` on. -/
def Stmt.layoutAll (parent id : NodeId) : List Stmt → List Node
  | [] => []
  | s :: rest => s.layout parent id ++ Stmt.layoutAll parent (id + s.size) rest

/-- The nodes of a statement that may be absent. -/
def Stmt.layoutOption (parent id : NodeId) : Option Stmt → List Node
  | none => []
  | some s => s.layout parent id

/-- The numbers of some statements that are laid out from `id` on. -/
def Stmt.positions (id : NodeId) : List Stmt → List NodeId
  | [] => []
  | s :: rest => id :: Stmt.positions (id + s.size) rest

/-- The number of a statement that may be absent. -/
def Stmt.positionOption (id : NodeId) : Option Stmt → List NodeId
  | none => []
  | some _ => [id]

end

/-- The nodes of a declaration that is numbered `id` and lies below `parent`. -/
def Decl.layout (parent id : NodeId) : Decl → List Node
  | .global ty name init =>
    ⟨.global ty name, Expr.positionOption (id + 1) init, some parent⟩
      :: Expr.layoutOption id (id + 1) init
  | .function returnType name params body =>
    ⟨.function returnType name params, [id + 1], some parent⟩
      :: ⟨.block, Stmt.positions (id + 2) body, some id⟩
      :: Stmt.layoutAll (id + 1) (id + 2) body

/-- The nodes of some declarations, numbered from `id` on. -/
def Decl.layoutAll (parent id : NodeId) : List Decl → List Node
  | [] => []
  | d :: rest => d.layout parent id ++ Decl.layoutAll parent (id + d.size) rest

/-- The numbers of some declarations that are laid out from `id` on. -/
def Decl.positions (id : NodeId) : List Decl → List NodeId
  | [] => []
  | d :: rest => id :: Decl.positions (id + d.size) rest

/-- The nodes of a program. -/
def Program.layout (p : Program) : List Node :=
  ⟨.unit, Decl.positions 1 p.declarations, none⟩ :: Decl.layoutAll Arena.root 1 p.declarations

/-- The arena of a program, without detached nodes. -/
def Arena.ofProgram (p : Program) : Arena := ⟨p.layout.toArray⟩

end ShaderShrink

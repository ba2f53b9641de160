import ShaderShrink.Arena.Layout
import ShaderShrink.Program.Coding
import ShaderShrink.Program.Render

/-!
# The program of an arena

`Arena.toProgram` reads the live nodes back as a program. It fails at the first node, in preorder,
that lacks a child or has one of the wrong sort. `Arena.compact` rebuilds the arena from its program
and so drops the detached nodes.

A term is read down to as many levels as there are nodes.
-/

namespace ShaderShrink.Arena

/-- The failure of a node that is not as its payload asks. -/
def malformed (a : Arena) (id : NodeId) : ArenaError :=
  match a.get? id with
  | some node => .malformed id node.data.formName
  | none => .unknownNode id

/-- The child at a place of a node, which has to exist. -/
def nthChild (a : Arena) (id : NodeId) (index : Nat) : Except ArenaError NodeId :=
  match (a.childrenOf id)[index]? with
  | some child => .ok child
  | none => .error (a.malformed id)

/-- Reads an expression. -/
def exprWithin (a : Arena) : Nat → NodeId → Except ArenaError Expr
  | 0, id => .error (a.malformed id)
  | levels + 1, id => do
    let node ← a.find id
    let part (index : Nat) : Except ArenaError Expr := do
      a.exprWithin levels (← a.nthChild id index)
    match node.data with
    | .unary op => return .unary op (← part 0)
    | .binary op => do
      let lhs ← part 0
      return .binary op lhs (← part 1)
    | .call callee => return .call callee (← node.children.mapM (a.exprWithin levels))
    | .paren => return .paren (← part 0)
    | .ternary => do
      let cond ← part 0
      let onTrue ← part 1
      return .ternary cond onTrue (← part 2)
    | .int value => return .int value
    | .float text => return .float text
    | .bool value => return .bool value
    | .ident name => return .ident name
    | _ => throw (a.malformed id)

/-- Reads an expression. -/
def toExpr (a : Arena) (id : NodeId) : Except ArenaError Expr := a.exprWithin (a.size + 1) id

/-- Reads the first child as an expression, if there is one. -/
def firstExpr (a : Arena) (id : NodeId) : Except ArenaError (Option Expr) :=
  match a.childrenOf id with
  | [] => .ok none
  | child :: _ => (a.toExpr child).map some

/-- Reads a statement. -/
def stmtWithin (a : Arena) : Nat → NodeId → Except ArenaError Stmt
  | 0, id => .error (a.malformed id)
  | levels + 1, id => do
    let node ← a.find id
    let part (index : Nat) : Except ArenaError Stmt := do
      a.stmtWithin levels (← a.nthChild id index)
    match node.data with
    | .block => return .block (← node.children.mapM (a.stmtWithin levels))
    | .exprStmt => return .expr (← a.toExpr (← a.nthChild id 0))
    | .var ty name => return .var ty name (← a.firstExpr id)
    | .ifElse => do
      let cond ← a.toExpr (← a.nthChild id 0)
      let onTrue ← part 1
      match node.children[2]? with
      | none => return .ifElse cond onTrue none
      | some child => return .ifElse cond onTrue (some (← a.stmtWithin levels child))
    | .whileLoop => do
      let cond ← a.toExpr (← a.nthChild id 0)
      return .whileLoop cond (← part 1)
    | .ret => return .ret (← a.firstExpr id)
    | .discard => return .discard
    | .empty => return .empty
    | _ => throw (a.malformed id)

/-- Reads a statement. -/
def toStmt (a : Arena) (id : NodeId) : Except ArenaError Stmt := a.stmtWithin (a.size + 1) id

/-- Reads a declaration. -/
def toDecl (a : Arena) (id : NodeId) : Except ArenaError Decl := do
  let node ← a.find id
  match node.data with
  | .global ty name => return .global ty name (← a.firstExpr id)
  | .function returnType name params => do
    match ← a.toStmt (← a.nthChild id 0) with
    | .block body => return .function returnType name params body
    | _ => throw (a.malformed id)
  | _ => throw (a.malformed id)

/-- Reads the program of the live nodes. -/
def toProgram (a : Arena) : Except ArenaError Program := do
  return ⟨← (a.childrenOf root).mapM a.toDecl⟩

/-- The arena without its detached nodes. -/
def compact (a : Arena) : Except ArenaError Arena := a.toProgram.map ofProgram

/-- The text of the live program. -/
def render (a : Arena) : Except ArenaError String := a.toProgram.map Program.render

/-- The digest of the live program. -/
def digest (a : Arena) : Except ArenaError String := a.toProgram.map Program.digest

end ShaderShrink.Arena

import ShaderShrink.Program.Basic

/-!
# Program text

`Program.render` writes a program in the shading language. An expression is put between parentheses
exactly where it binds more loosely than its place asks for, and where a minus sign would otherwise
follow another one; a branch is put between braces where a following `else` would otherwise belong
to an `if` inside it.
-/

namespace ShaderShrink

/-! ## Expressions -/

namespace BinaryOp

/-- How tightly the operator binds; a larger number binds more tightly. -/
def precedence : BinaryOp → Nat
  | .assign => 1
  | .or => 3
  | .and => 4
  | .eq | .ne => 5
  | .lt | .le | .gt | .ge => 6
  | .add | .sub => 7
  | .mul | .div | .mod => 8

end BinaryOp

namespace Expr

/-- The precedence of an assignment, the loosest expression that may be an argument. -/
def assignmentLevel : Nat := 1

/-- The precedence of a choice between two expressions. -/
def ternaryLevel : Nat := 2

/-- The precedence of an operator with one operand. -/
def unaryLevel : Nat := 9

/-- The precedence of an expression that needs no parentheses anywhere. -/
def primaryLevel : Nat := 10

/-- Whether a text starts with a minus sign. -/
def startsWithMinus (text : String) : Bool := text.toList.head? = some '-'

/-- How tightly the outermost form of an expression binds. A literal with a minus sign binds like
the operator. -/
def precedence : Expr → Nat
  | .binary op _ _ => op.precedence
  | .ternary .. => ternaryLevel
  | .unary .. => unaryLevel
  | .int value => if value < 0 then unaryLevel else primaryLevel
  | .float text => if startsWithMinus text then unaryLevel else primaryLevel
  | _ => primaryLevel

/-- Whether the text of an expression that needs no parentheses at its place starts with a minus
sign, as far as this matters after a minus sign. -/
def opensWithMinus : Expr → Bool
  | .int value => value < 0
  | .float text => startsWithMinus text
  | .unary op _ => op = .neg
  | _ => false

/-- A text between parentheses. -/
def parenthesize (text : String) : String := "(" ++ text ++ ")"

/-- The text of an expression at a place that asks for at least the precedence `level`, given the
text of the expression on its own. -/
def placed (level : Nat) (e : Expr) (text : String) : String :=
  if e.precedence < level then parenthesize text else text

/-- The text of an operand after an operator, given the text of the operand on its own. Two minus
signs in a row would be read as one operator. -/
def operandText (op : UnaryOp) (e : Expr) (text : String) : String :=
  if op = .neg ∧ e.opensWithMinus then parenthesize text else placed unaryLevel e text

/-- The precedence that an operator asks for on its left. Assignments group to the right and all
other operators to the left. -/
def leftLevel (op : BinaryOp) : Nat := if op = .assign then op.precedence + 1 else op.precedence

/-- The precedence that an operator asks for on its right. -/
def rightLevel (op : BinaryOp) : Nat := if op = .assign then op.precedence else op.precedence + 1

mutual

/-- The text of an expression on its own. -/
def render : Expr → String
  | .int value => toString value.toInt
  | .float text => text
  | .bool value => if value then "true" else "false"
  | .ident name => name
  | .unary op e => op.text ++ operandText op e e.render
  | .binary op l r =>
    placed (leftLevel op) l l.render ++ " " ++ op.text ++ " " ++ placed (rightLevel op) r r.render
  | .call callee args => callee ++ parenthesize (renderArgs args)
  | .paren e => parenthesize e.render
  | .ternary c t f =>
    placed (ternaryLevel + 1) c c.render ++ " ? " ++ placed assignmentLevel t t.render ++ " : "
      ++ placed ternaryLevel f f.render

/-- The texts of arguments, with commas between them. -/
def renderArgs : List Expr → String
  | [] => ""
  | [e] => placed assignmentLevel e e.render
  | e :: rest => placed assignmentLevel e e.render ++ ", " ++ renderArgs rest

end

end Expr

/-! ## Statements -/

namespace Stmt

/-- The blanks in front of a line at a level of indentation. -/
def pad (level : Nat) : String := String.ofList (List.replicate (4 * level) ' ')

/-- A line at a level of indentation. -/
def line (level : Nat) (text : String) : String := pad level ++ text ++ "
"

/-- The text of a declaration of a variable. -/
def declarationText (ty name : String) : Option Expr → String
  | none => ty ++ " " ++ name ++ ";"
  | some e => ty ++ " " ++ name ++ " = " ++ e.render ++ ";"

mutual

/-- Whether a statement ends in an `if` without an `else`, which a following `else` would belong
to. -/
def hasDanglingIf : Stmt → Bool
  | .ifElse _ _ onFalse => hasDanglingIfOption onFalse
  | .whileLoop _ body => body.hasDanglingIf
  | _ => false

/-- Whether an `if` ends in an `if` without an `else`, given its own `else` branch. -/
def hasDanglingIfOption : Option Stmt → Bool
  | none => true
  | some s => s.hasDanglingIf

end

mutual

/-- The lines of a statement at a level of indentation. -/
def render (level : Nat) : Stmt → String
  | .block body => line level "\x7b" ++ renderAll (level + 1) body ++ line level "\x7d"
  | .expr e => line level (e.render ++ ";")
  | .var ty name init => line level (declarationText ty name init)
  | .ifElse cond onTrue onFalse =>
    line level ("if " ++ Expr.parenthesize cond.render)
      ++ (if onFalse.isSome ∧ onTrue.hasDanglingIf then
          line level "\x7b" ++ onTrue.render (level + 1) ++ line level "\x7d"
        else onTrue.render (level + 1))
      ++ renderElse level onFalse
  | .whileLoop cond body =>
    line level ("while " ++ Expr.parenthesize cond.render) ++ body.render (level + 1)
  | .ret none => line level "return;"
  | .ret (some e) => line level ("return " ++ e.render ++ ";")
  | .discard => line level "discard;"
  | .empty => line level ";"

/-- The lines of an `else` with its branch, if there is one. -/
def renderElse (level : Nat) : Option Stmt → String
  | none => ""
  | some s => line level "else" ++ s.render (level + 1)

/-- The lines of some statements. -/
def renderAll (level : Nat) : List Stmt → String
  | [] => ""
  | s :: rest => s.render level ++ renderAll level rest

end

end Stmt

/-! ## Declarations and programs -/

/-- The text of a parameter. -/
def Param.render (p : Param) : String := p.ty ++ " " ++ p.name

/-- The lines of a declaration. -/
def Decl.render : Decl → String
  | .global ty name init => Stmt.line 0 (Stmt.declarationText ty name init)
  | .function returnType name params body =>
    Stmt.line 0 (returnType ++ " " ++ name
        ++ Expr.parenthesize (", ".intercalate (params.map Param.render)))
      ++ Stmt.line 0 "\x7b" ++ Stmt.renderAll 1 body ++ Stmt.line 0 "\x7d"

/-- The lines of a program. -/
def Program.render (p : Program) : String := String.join (p.declarations.map Decl.render)

end ShaderShrink

/-!
# Shader programs

The programs that are reduced: a program is a list of declarations, whose functions hold
statements, which hold expressions. A float literal keeps the text it was written with, so equality
of programs is decidable and means "the same tree".

Lists of sub-terms have companion functions (`Expr.sizeAll` beside `Expr.size`), so all definitions
are structurally recursive.
-/

namespace ShaderShrink

/-! ## Operators -/

/-- The operators with one operand. -/
inductive UnaryOp where
  | neg
  | not
  | bitNot
  deriving DecidableEq, Repr, Inhabited

/-- The text of an operator. -/
def UnaryOp.text : UnaryOp → String
  | .neg => "-"
  | .not => "!"
  | .bitNot => "~"

/-- The operators with two operands. -/
inductive BinaryOp where
  | add
  | sub
  | mul
  | div
  | mod
  | lt
  | le
  | gt
  | ge
  | eq
  | ne
  | and
  | or
  | assign
  deriving DecidableEq, Repr, Inhabited

namespace BinaryOp

/-- The text of an operator. -/
def text : BinaryOp → String
  | .add => "+"
  | .sub => "-"
  | .mul => "*"
  | .div => "/"
  | .mod => "%"
  | .lt => "<"
  | .le => "<="
  | .gt => ">"
  | .ge => ">="
  | .eq => "=="
  | .ne => "!="
  | .and => "&&"
  | .or => "||"
  | .assign => "="

/-- Whether the operator compares its operands or combines truth values, so that its value is a
truth value. -/
def isTruthValued : BinaryOp → Bool
  | .lt | .le | .gt | .ge | .eq | .ne | .and | .or => true
  | _ => false

end BinaryOp

/-! ## Expressions -/

/-- An expression. -/
inductive Expr where
  | int (value : Int64)
  | float (text : String)
  | bool (value : Bool)
  | ident (name : String)
  | unary (op : UnaryOp) (operand : Expr)
  | binary (op : BinaryOp) (lhs rhs : Expr)
  | call (callee : String) (args : List Expr)
  | paren (inner : Expr)
  | ternary (cond onTrue onFalse : Expr)
  deriving Repr, Inhabited

namespace Expr

mutual

/-- The number of nodes of an expression. -/
def size : Expr → Nat
  | .unary _ e => e.size + 1
  | .binary _ l r => l.size + r.size + 1
  | .call _ args => sizeAll args + 1
  | .paren e => e.size + 1
  | .ternary c t f => c.size + t.size + f.size + 1
  | _ => 1

/-- The number of nodes of some expressions. -/
def sizeAll : List Expr → Nat
  | [] => 0
  | e :: rest => e.size + sizeAll rest

end

mutual

/-- Whether two expressions are the same tree. -/
def same : Expr → Expr → Bool
  | .int a, .int b => a = b
  | .float a, .float b => a = b
  | .bool a, .bool b => a = b
  | .ident a, .ident b => a = b
  | .unary o a, .unary o' b => o = o' && a.same b
  | .binary o l r, .binary o' l' r' => o = o' && l.same l' && r.same r'
  | .call f as, .call g bs => f = g && sameAll as bs
  | .paren a, .paren b => a.same b
  | .ternary c t f, .ternary c' t' f' => c.same c' && t.same t' && f.same f'
  | _, _ => false

/-- Whether two lists of expressions are the same trees. -/
def sameAll : List Expr → List Expr → Bool
  | [], [] => true
  | a :: as, b :: bs => a.same b && sameAll as bs
  | _, _ => false

end

mutual

/-- The test finds out whether expressions are equal. -/
theorem same_iff : ∀ {a b : Expr}, a.same b = true ↔ a = b
  | .int _, b => by cases b <;> simp [same]
  | .float _, b => by cases b <;> simp [same]
  | .bool _, b => by cases b <;> simp [same]
  | .ident _, b => by cases b <;> simp [same]
  | .unary _ a, b => by cases b <;> simp [same, same_iff (a := a)]
  | .binary _ l r, b => by
    cases b <;> simp [same, same_iff (a := l), same_iff (a := r), and_assoc]
  | .call _ as, b => by cases b <;> simp [same, sameAll_iff (l := as)]
  | .paren a, b => by cases b <;> simp [same, same_iff (a := a)]
  | .ternary c t f, b => by
    cases b <;> simp [same, same_iff (a := c), same_iff (a := t), same_iff (a := f), and_assoc]

/-- The test finds out whether lists of expressions are equal. -/
theorem sameAll_iff : ∀ {l m : List Expr}, sameAll l m = true ↔ l = m
  | [], bs => by cases bs <;> simp [sameAll]
  | a :: as, bs => by
    cases bs <;> simp [sameAll, same_iff (a := a), sameAll_iff (l := as)]

end

instance : DecidableEq Expr := fun _ _ => decidable_of_iff _ same_iff

end Expr

/-! ## Statements -/

/-- A statement. -/
inductive Stmt where
  | block (body : List Stmt)
  | expr (e : Expr)
  | var (ty name : String) (init : Option Expr)
  | ifElse (cond : Expr) (onTrue : Stmt) (onFalse : Option Stmt)
  | whileLoop (cond : Expr) (body : Stmt)
  | ret (value : Option Expr)
  | discard
  | empty
  deriving Repr, Inhabited

/-- The number of nodes of an expression that may be absent. -/
def Expr.sizeOption (e : Option Expr) : Nat := e.elim 0 Expr.size

namespace Stmt

mutual

/-- The number of nodes of a statement. -/
def size : Stmt → Nat
  | .block body => sizeAll body + 1
  | .expr e => e.size + 1
  | .var _ _ init => Expr.sizeOption init + 1
  | .ifElse c t f => c.size + t.size + sizeOption f + 1
  | .whileLoop c b => c.size + b.size + 1
  | .ret value => Expr.sizeOption value + 1
  | .discard => 1
  | .empty => 1

/-- The number of nodes of some statements. -/
def sizeAll : List Stmt → Nat
  | [] => 0
  | s :: rest => s.size + sizeAll rest

/-- The number of nodes of a statement that may be absent. -/
def sizeOption : Option Stmt → Nat
  | none => 0
  | some s => s.size

end

mutual

/-- Whether two statements are the same tree. -/
def same : Stmt → Stmt → Bool
  | .block a, .block b => sameAll a b
  | .expr a, .expr b => a = b
  | .var t n i, .var t' n' i' => t = t' && n = n' && i = i'
  | .ifElse c t f, .ifElse c' t' f' => c = c' && t.same t' && sameOption f f'
  | .whileLoop c b, .whileLoop c' b' => c = c' && b.same b'
  | .ret a, .ret b => a = b
  | .discard, .discard => true
  | .empty, .empty => true
  | _, _ => false

/-- Whether two lists of statements are the same trees. -/
def sameAll : List Stmt → List Stmt → Bool
  | [], [] => true
  | a :: as, b :: bs => a.same b && sameAll as bs
  | _, _ => false

/-- Whether two statements that may be absent are the same tree. -/
def sameOption : Option Stmt → Option Stmt → Bool
  | none, none => true
  | some a, some b => a.same b
  | _, _ => false

end

mutual

/-- The test finds out whether statements are equal. -/
theorem same_iff : ∀ {a b : Stmt}, a.same b = true ↔ a = b
  | .block a, b => by cases b <;> simp [same, sameAll_iff (l := a)]
  | .expr _, b => by cases b <;> simp [same]
  | .var _ _ _, b => by cases b <;> simp [same, and_assoc]
  | .ifElse _ t f, b => by
    cases b <;> simp [same, same_iff (a := t), sameOption_iff (a := f), and_assoc]
  | .whileLoop _ s, b => by cases b <;> simp [same, same_iff (a := s)]
  | .ret _, b => by cases b <;> simp [same]
  | .discard, b => by cases b <;> simp [same]
  | .empty, b => by cases b <;> simp [same]

/-- The test finds out whether lists of statements are equal. -/
theorem sameAll_iff : ∀ {l m : List Stmt}, sameAll l m = true ↔ l = m
  | [], bs => by cases bs <;> simp [sameAll]
  | a :: as, bs => by
    cases bs <;> simp [sameAll, same_iff (a := a), sameAll_iff (l := as)]

/-- The test finds out whether branches are equal. -/
theorem sameOption_iff : ∀ {a b : Option Stmt}, sameOption a b = true ↔ a = b
  | none, b => by cases b <;> simp [sameOption]
  | some a, b => by cases b <;> simp [sameOption, same_iff (a := a)]

end

instance : DecidableEq Stmt := fun _ _ => decidable_of_iff _ same_iff

end Stmt

/-! ## Declarations and programs -/

/-- A parameter of a function. -/
structure Param where
  ty : String
  name : String
  deriving DecidableEq, Repr, Inhabited

/-- A declaration at the top level. -/
inductive Decl where
  | global (ty name : String) (init : Option Expr)
  | function (returnType name : String) (params : List Param) (body : List Stmt)
  deriving DecidableEq, Repr, Inhabited

namespace Decl

/-- The declared name. -/
def name : Decl → String
  | .global _ name _ => name
  | .function _ name _ _ => name

/-- Whether the declaration is a function of the given name. -/
def isFunction (entry : String) : Decl → Bool
  | .function _ name _ _ => name = entry
  | .global .. => false

/-- The number of nodes of a declaration. The body of a function is a block, which is a node of its
own. -/
def size : Decl → Nat
  | .global _ _ init => Expr.sizeOption init + 1
  | .function _ _ _ body => Stmt.sizeAll body + 2

/-- The number of nodes of some declarations. -/
def sizeAll : List Decl → Nat
  | [] => 0
  | d :: rest => d.size + sizeAll rest

end Decl

/-- A shader source as a tree. -/
structure Program where
  declarations : List Decl
  deriving DecidableEq, Repr, Inhabited

namespace Program

/-- The number of nodes of a program, the unit itself included. -/
def size (p : Program) : Nat := Decl.sizeAll p.declarations + 1

/-- The function that a program starts with. -/
def entryPoint : String := "main"

end Program

end ShaderShrink

import ShaderShrink.Program.Basic

/-!
# Nodes of an arena

A program that is being edited is kept as numbered nodes. The payload of a node (`Payload`) is what
the node holds apart from its children; how many children it has and what they may be follows from
the payload:

* the unit has declarations, a block has statements, a call has arguments;
* a global, a variable and a return have an expression or nothing;
* a function has its body, which is a block;
* an `if` has a condition, a branch and perhaps another branch, a loop a condition and a body;
* an expression statement, an operator with one operand and a pair of parentheses have an
  expression, an operator with two operands has two, a choice has three.
-/

namespace ShaderShrink

/-- The payload of a node. -/
inductive Payload where
  | unit
  | global (ty name : String)
  | function (returnType name : String) (params : List Param)
  | block
  | exprStmt
  | var (ty name : String)
  | ifElse
  | whileLoop
  | ret
  | discard
  | empty
  | int (value : Int64)
  | float (text : String)
  | bool (value : Bool)
  | ident (name : String)
  | unary (op : UnaryOp)
  | binary (op : BinaryOp)
  | call (callee : String)
  | paren
  | ternary
  deriving DecidableEq, Repr, Inhabited

/-- The sorts of nodes. -/
inductive NodeCategory where
  | unit
  | declaration
  | statement
  | expression
  deriving DecidableEq, Repr, Inhabited

/-- What a place among the children of a node may hold. A body holds blocks only. -/
inductive SlotKind where
  | declaration
  | statement
  | body
  | expression
  deriving DecidableEq, Repr, Inhabited

namespace Payload

/-- The sort of a node. -/
def category : Payload → NodeCategory
  | .unit => .unit
  | .global .. | .function .. => .declaration
  | .block | .exprStmt | .var .. | .ifElse | .whileLoop | .ret | .discard | .empty => .statement
  | .int _ | .float _ | .bool _ | .ident _ | .unary _ | .binary _ | .call _ | .paren | .ternary =>
    .expression

/-- Whether a node is a literal. -/
def isLiteral : Payload → Bool
  | .int _ | .float _ | .bool _ => true
  | _ => false

/-- Whether children may be added to a node and removed from it. -/
def isVariadic : Payload → Bool
  | .unit | .block => true
  | _ => false

/-- The name of the form of a node. -/
def formName : Payload → String
  | .unit => "unit"
  | .global .. => "global"
  | .function .. => "function"
  | .block => "block"
  | .exprStmt => "expr_stmt"
  | .var .. => "var"
  | .ifElse => "if"
  | .whileLoop => "while"
  | .ret => "return"
  | .discard => "discard"
  | .empty => "empty"
  | .int _ => "int"
  | .float _ => "float"
  | .bool _ => "bool"
  | .ident _ => "ident"
  | .unary _ => "unary"
  | .binary _ => "binary"
  | .call _ => "call"
  | .paren => "paren"
  | .ternary => "ternary"

/-- What the place `index` among the children may hold; a node without children has no places. -/
def slotKind? (data : Payload) (index : Nat) : Option SlotKind :=
  match data with
  | .unit => some .declaration
  | .function .. => some .body
  | .block => some .statement
  | .ifElse | .whileLoop => if index = 0 then some .expression else some .statement
  | .global .. | .var .. | .ret | .exprStmt | .unary _ | .binary _ | .call _ | .paren | .ternary =>
    some .expression
  | .discard | .empty | .int _ | .float _ | .bool _ | .ident _ => none

end Payload

namespace NodeCategory

/-- The name of a sort of nodes. -/
def name : NodeCategory → String
  | .unit => "unit"
  | .declaration => "declaration"
  | .statement => "statement"
  | .expression => "expression"

/-- All sorts of nodes. -/
def all : List NodeCategory := [.unit, .declaration, .statement, .expression]

end NodeCategory

namespace SlotKind

/-- The name of a kind of place. -/
def name : SlotKind → String
  | .declaration => "declaration"
  | .statement => "statement"
  | .body => "body"
  | .expression => "expression"

/-- All kinds of places. -/
def all : List SlotKind := [.declaration, .statement, .body, .expression]

/-- Whether a place may hold a node. -/
def accepts : SlotKind → Payload → Bool
  | .declaration, data => data.category = .declaration
  | .statement, data => data.category = .statement
  | .body, data => data = .block
  | .expression, data => data.category = .expression

end SlotKind

/-- The number of a node in its arena. -/
abbrev NodeId := Nat

/-- How messages write the number of a node. -/
def nodeLabel (id : NodeId) : String := "n" ++ toString id

/-- A node: its payload, its children in the order of their places, and the node that has it as a
child, if there is one. -/
structure Node where
  data : Payload
  children : List NodeId
  parent : Option NodeId
  deriving DecidableEq, Repr, Inhabited

/-- Why an arena cannot be read or edited as asked. -/
inductive ArenaError where
  | unknownNode (node : NodeId)
  | notAChild (parent node : NodeId)
  | slotMismatch (parent : NodeId) (slot : SlotKind) (found : String)
  /-- The node that is to be attached, or a child of it, is attached elsewhere. -/
  | replacementAttached (node : NodeId)
  | notVariadic (parent : NodeId)
  | indexOutOfBounds (parent : NodeId) (index len : Nat)
  /-- A node lacks children that its payload asks for, or has children of the wrong sort. -/
  | malformed (node : NodeId) (kind : String)
  deriving DecidableEq, Repr

/-- What is said about an arena that cannot be read or edited as asked. -/
def ArenaError.message : ArenaError → String
  | .unknownNode node => "node " ++ nodeLabel node ++ " does not exist in this tree"
  | .notAChild parent node =>
    "node " ++ nodeLabel node ++ " is not a live child of " ++ nodeLabel parent
  | .slotMismatch parent slot found =>
    slot.name ++ " slot of " ++ nodeLabel parent ++ " cannot hold a `" ++ found ++ "` node"
  | .replacementAttached node => "node " ++ nodeLabel node ++ " is still attached elsewhere"
  | .notVariadic parent =>
    "children of " ++ nodeLabel parent ++ " cannot be inserted or removed"
  | .indexOutOfBounds parent index len =>
    "index " ++ toString index ++ " is out of bounds for " ++ nodeLabel parent ++ " with "
      ++ toString len ++ " children"
  | .malformed node kind =>
    "node " ++ nodeLabel node ++ " has a malformed `" ++ kind ++ "` shape"

end ShaderShrink

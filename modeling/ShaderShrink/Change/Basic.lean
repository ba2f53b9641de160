import ShaderShrink.Arena.Edit
import ShaderShrink.Arena.Snippet

/-!
# Changes

A change makes a program smaller at one place: an expression becomes one of its operands or a
literal, a statement or a declaration goes, or a compound statement becomes one of the statements
inside it. A change names the nodes that it is about, and since other changes may have been made in
the meantime, `Change.holds` says whether these are still where they were seen. `Change.apply` makes
a change whose precondition holds, and `Edit.revert` undoes what it did.
-/

namespace ShaderShrink

open Json (Decoder)

/-! ## Kinds and literals -/

/-- The kinds of changes. -/
inductive ChangeKind where
  | simplifyExpr
  | removeStatement
  | removeDeclaration
  | collapseStatement
  deriving DecidableEq, Repr, Inhabited

namespace ChangeKind

/-- The name of a kind of changes. -/
def name : ChangeKind → String
  | .simplifyExpr => "simplify_expr"
  | .removeStatement => "remove_statement"
  | .removeDeclaration => "remove_declaration"
  | .collapseStatement => "collapse_statement"

/-- All kinds of changes. -/
def all : List ChangeKind :=
  [.simplifyExpr, .removeStatement, .removeDeclaration, .collapseStatement]

/-- A kind as a JSON value. -/
def toJson (k : ChangeKind) : Json := .str k.name

/-- Decodes a kind. -/
def ofJson : Decoder ChangeKind := Json.choice (all.map fun k => (k.name, k))

end ChangeKind

/-- A literal that stands in for a larger expression. -/
inductive LiteralValue where
  | int (value : Int64)
  | float (text : String)
  | bool (value : Bool)
  deriving DecidableEq, Repr, Inhabited

namespace LiteralValue

/-- The payload of the node of a literal. -/
def toPayload : LiteralValue → Payload
  | .int value => .int value
  | .float text => .float text
  | .bool value => .bool value

/-- The text of a literal. -/
def text : LiteralValue → String
  | .int value => toString value.toInt
  | .float text => text
  | .bool value => if value then "true" else "false"

/-- A literal as a JSON value. -/
def toJson : LiteralValue → Json
  | .int value => .obj [("kind", .str "int"), ("value", .int value.toInt)]
  | .float text => .obj [("kind", .str "float"), ("value", .str text)]
  | .bool value => .obj [("kind", .str "bool"), ("value", .bool value)]

/-- The decoders of the values of literals, by their kinds. -/
def decoders : List (String × Decoder LiteralValue) :=
  [("int", fun source v => (Json.int64 source v).map .int),
    ("float", fun source v => (Json.string source v).map .float),
    ("bool", fun source v => (Json.boolean source v).map .bool)]

/-- Decodes a literal. -/
def ofJson : Decoder LiteralValue := Json.labelled "kind" "value" decoders

end LiteralValue

/-! ## Changes -/

/-- What an expression is simplified to. -/
inductive Candidate where
  /-- A child of the expression. -/
  | operand (node : NodeId)
  /-- A literal, which becomes a node when the change is made. -/
  | literal (value : LiteralValue)
  deriving DecidableEq, Repr, Inhabited

/-- A shrinking change of a program. -/
inductive Change where
  | simplifyExpr (parent target : NodeId) (candidate : Candidate)
  | removeStatement (block statement : NodeId)
  | removeDeclaration (unit declaration : NodeId)
  /-- Puts a statement inside a compound statement in the place of the compound statement. -/
  | collapseStatement (parent target inner : NodeId)
  deriving DecidableEq, Repr, Inhabited

/-- What a change did to the lists of children. -/
inductive Edit where
  | replaced (parent target replacement : NodeId)
  | removed (parent child : NodeId) (index : Nat)
  deriving DecidableEq, Repr, Inhabited

/-- Undoes an edit. -/
def Edit.revert (a : Arena) : Edit → Except ArenaError Arena
  | .replaced parent target replacement => a.replaceChild parent replacement target
  | .removed parent child index => a.insertChild parent index child

/-- Why a change was not made, or a reduction could not go on. -/
inductive ReductionError where
  | preconditionViolated (description : String)
  | structural (cause : ArenaError)
  deriving DecidableEq, Repr

namespace ReductionError

/-- The name of a kind of errors. -/
def code : ReductionError → String
  | .preconditionViolated _ => "precondition_violated"
  | .structural _ => "structural_error"

/-- What is said about an error. -/
def message : ReductionError → String
  | .preconditionViolated description =>
    "precondition of `" ++ description ++ "` does not hold in the current tree"
  | .structural cause => cause.message

end ReductionError

namespace Change

/-- The kind of a change. -/
def kind : Change → ChangeKind
  | .simplifyExpr .. => .simplifyExpr
  | .removeStatement .. => .removeStatement
  | .removeDeclaration .. => .removeDeclaration
  | .collapseStatement .. => .collapseStatement

/-- Whether the nodes that a change is about are where the change needs them. -/
def holds (a : Arena) : Change → Bool
  | .simplifyExpr parent target (.operand node) =>
    a.hasChild parent target && a.hasChild target node
  | .simplifyExpr parent target (.literal _) => a.hasChild parent target
  | .removeStatement block statement => a.hasChild block statement
  | .removeDeclaration unit declaration => a.hasChild unit declaration
  | .collapseStatement parent target inner =>
    a.hasChild parent target && a.hasChild target inner

/-- A description that quotes a text. -/
def describeOne (kind : ChangeKind) (text : String) : String :=
  kind.name ++ ": `" ++ text ++ "`"

/-- A description that quotes what there was and what it becomes. -/
def describeTwo (kind : ChangeKind) (before after : String) : String :=
  kind.name ++ ": `" ++ before ++ "` -> `" ++ after ++ "`"

/-- The description of a change. -/
def describe (a : Arena) (c : Change) : String :=
  match c with
  | .simplifyExpr _ target (.operand node) =>
    describeTwo c.kind (a.snippet target) (a.snippet node)
  | .simplifyExpr _ target (.literal value) => describeTwo c.kind (a.snippet target) value.text
  | .removeStatement _ statement => describeOne c.kind (a.snippet statement)
  | .removeDeclaration _ declaration => describeOne c.kind (a.snippet declaration)
  | .collapseStatement _ target inner => describeTwo c.kind (a.snippet target) (a.snippet inner)

/-- Replaces a child; a refused edit leaves the arena as it is. -/
def replace (a : Arena) (parent target replacement : NodeId) :
    Except ReductionError Edit × Arena :=
  match a.replaceChild parent target replacement with
  | .ok a' => (.ok (.replaced parent target replacement), a')
  | .error e => (.error (.structural e), a)

/-- Removes a child; a refused edit leaves the arena as it is. -/
def remove (a : Arena) (parent child : NodeId) : Except ReductionError Edit × Arena :=
  match a.removeChild parent child with
  | .ok (a', index) => (.ok (.removed parent child index), a')
  | .error e => (.error (.structural e), a)

/-- Makes a change and gives the arena behind it. A change whose precondition does not hold is
refused. The node of a literal is made before its place is looked at, so it stays behind, detached,
if the place refuses it. -/
def apply (a : Arena) (c : Change) : Except ReductionError Edit × Arena :=
  if c.holds a then
    match c with
    | .simplifyExpr parent target (.operand node) => replace a parent target node
    | .simplifyExpr parent target (.literal value) =>
      let (a, node) := a.alloc value.toPayload
      replace a parent target node
    | .removeStatement block statement => remove a block statement
    | .removeDeclaration unit declaration => remove a unit declaration
    | .collapseStatement parent target inner => replace a parent target inner
  else
    (.error (.preconditionViolated (c.describe a)), a)

end Change

/-- A change that was found in a program, with the distance of the changed node from the root. -/
structure Opportunity where
  change : Change
  depth : Nat
  deriving DecidableEq, Repr, Inhabited

end ShaderShrink

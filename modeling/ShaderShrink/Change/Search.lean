import ShaderShrink.Change.Basic

/-!
# Finding opportunities

`FinderConfig.find` lists the opportunities of a program. It visits the live nodes in preorder,
lists the changes of each node, and sorts the list by depth, so that changes near the root, which
remove most, come first; changes of one depth stay in the order in which they were found.
-/

namespace ShaderShrink

open Json (Decoder)

/-- What to look for. -/
structure FinderConfig where
  simplifyExpressions : Bool
  removeStatements : Bool
  removeDeclarations : Bool
  collapseStatements : Bool
  /-- The name of the functions that are never removed. -/
  entryPoint : String
  deriving DecidableEq, Repr

namespace FinderConfig

/-- Looks for everything. -/
def default : FinderConfig := ⟨true, true, true, true, Program.entryPoint⟩

instance : Inhabited FinderConfig := ⟨default⟩

/-- A configuration as a JSON value. -/
def toJson (c : FinderConfig) : Json :=
  .obj [("simplify_expressions", .bool c.simplifyExpressions),
    ("remove_statements", .bool c.removeStatements),
    ("remove_declarations", .bool c.removeDeclarations),
    ("collapse_statements", .bool c.collapseStatements), ("entry_point", .str c.entryPoint)]

/-- The keys of a configuration. -/
def keys : List String :=
  ["simplify_expressions", "remove_statements", "remove_declarations", "collapse_statements",
    "entry_point"]

/-- Decodes a configuration. -/
def ofJson : Decoder FinderConfig := Json.record keys <|
  FinderConfig.mk <$> Json.required "simplify_expressions" Json.boolean
    <*> Json.required "remove_statements" Json.boolean
    <*> Json.required "remove_declarations" Json.boolean
    <*> Json.required "collapse_statements" Json.boolean
    <*> Json.required "entry_point" Json.string

end FinderConfig

namespace Arena

/-- The children that can stand in for an expression. The condition of a choice is none of them. -/
def operandsOf (node : Node) : List NodeId :=
  match node.data with
  | .unary _ | .paren | .binary _ | .call _ => node.children
  | .ternary => node.children.drop 1
  | _ => []

/-- The statements that can stand in for a compound statement. -/
def innerStatementsOf (node : Node) : List NodeId :=
  match node.data with
  | .ifElse | .whileLoop => node.children.drop 1
  | .block => if node.children.length = 1 then node.children else []
  | _ => []

/-- Whether there is a float literal at or below a node, down to `levels` levels. -/
def hasFloatWithin (a : Arena) : Nat → NodeId → Bool
  | 0, _ => false
  | levels + 1, id =>
    match a.get? id with
    | none => false
    | some ⟨.float _, _, _⟩ => true
    | some node => node.children.any (a.hasFloatWithin levels)

/-- A literal of a plausible type for an expression: a truth value if the expression is one, a float
if there is a float in it, and an integer otherwise. -/
def plausibleLiteral (a : Arena) (id : NodeId) (data : Payload) : LiteralValue :=
  match data with
  | .unary .not => .bool true
  | .binary op => if op.isTruthValued then .bool true else number
  | _ => number
where
  /-- A number of a plausible type. -/
  number : LiteralValue := if a.hasFloatWithin (a.size + 1) id then .float "1.0" else .int 1

/-- The changes of an expression: its operands from left to right, then the literal. -/
def exprChanges (a : Arena) (parent id : NodeId) (node : Node) : List Change :=
  let operands := (operandsOf node).map fun operand =>
    Change.simplifyExpr parent id (.operand operand)
  if !node.data.isLiteral && a.sizeBelow id > 1 then
    operands ++ [.simplifyExpr parent id (.literal (a.plausibleLiteral id node.data))]
  else operands

/-- Whether a node is at a place for statements. The body of a function is not. -/
def isStatementPlace (parent : Node) (id : NodeId) : Bool :=
  parent.children.contains id
    && parent.data.slotKind? (parent.children.idxOf id) == some .statement

/-- The changes of a statement: its removal, then the statements inside it. -/
def stmtChanges (a : Arena) (config : FinderConfig) (parent id : NodeId) (node : Node) :
    List Change :=
  match a.get? parent with
  | none => []
  | some parentNode =>
    (if config.removeStatements && parentNode.data == .block then
        [.removeStatement parent id]
      else [])
    ++ (if config.collapseStatements && isStatementPlace parentNode id then
        (innerStatementsOf node).map fun inner => .collapseStatement parent id inner
      else [])

/-- The changes of a declaration: its removal, unless it is an entry point. -/
def declChanges (config : FinderConfig) (parent id : NodeId) (node : Node) : List Change :=
  match node.data with
  | .function _ name _ =>
    if name = config.entryPoint then [] else [.removeDeclaration parent id]
  | _ => [.removeDeclaration parent id]

/-- The changes of a node. -/
def changesAt (a : Arena) (config : FinderConfig) (id : NodeId) : List Change :=
  match a.get? id with
  | some node =>
    match node.parent with
    | none => []
    | some parent =>
      match node.data.category with
      | .expression => if config.simplifyExpressions then a.exprChanges parent id node else []
      | .statement => a.stmtChanges config parent id node
      | .declaration => if config.removeDeclarations then declChanges config parent id node else []
      | .unit => []
  | none => []

/-- The opportunities of a node. -/
def opportunitiesAt (a : Arena) (config : FinderConfig) (id : NodeId) : List Opportunity :=
  (a.changesAt config id).map fun change => ⟨change, a.depth id⟩

end Arena

/-- The opportunities of a program, those near the root first. -/
def FinderConfig.find (config : FinderConfig) (a : Arena) : List Opportunity :=
  (a.preorder.flatMap (a.opportunitiesAt config)).mergeSort fun x y => x.depth ≤ y.depth

end ShaderShrink

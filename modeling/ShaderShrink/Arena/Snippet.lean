import ShaderShrink.Arena.Raise
import ShaderShrink.Text.Blank

/-!
# Snippets

A short text for a node, for descriptions and logs: the text of the program part on one line, cut
when it is long. A node that cannot be read is named by the form of its payload.
-/

namespace ShaderShrink.Arena

/-- The most characters that a snippet has. -/
def snippetLimit : Nat := 60

/-- A text that is cut, with dots at its end, if it is longer than a snippet may be. -/
def abbreviate (text : String) : String :=
  if text.length > snippetLimit then String.ofList (text.toList.take (snippetLimit - 3)) ++ "..."
  else text

/-- The text of a node, on lines of its own if it is a statement or a declaration. -/
def nodeText (a : Arena) (id : NodeId) (data : Payload) : Except ArenaError String :=
  match data.category with
  | .expression => (a.toExpr id).map Expr.render
  | .statement => (a.toStmt id).map (Stmt.render 0)
  | .declaration => (a.toDecl id).map Decl.render
  | .unit => .ok "<unit>"

/-- A short text for a node. -/
def snippet (a : Arena) (id : NodeId) : String :=
  match a.get? id with
  | none => "<" ++ nodeLabel id ++ ">"
  | some node =>
    match a.nodeText id node.data with
    | .ok text => abbreviate (Text.oneLine text)
    | .error _ => abbreviate (Text.oneLine ("<" ++ node.data.formName ++ ">"))

end ShaderShrink.Arena

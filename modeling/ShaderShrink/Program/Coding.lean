import ShaderShrink.Digest.Sha256
import ShaderShrink.Json.Decode
import ShaderShrink.Json.Printer
import ShaderShrink.Program.Basic

/-!
# Programs as JSON

The form in which job files carry programs. Expressions, statements and declarations are objects
whose member `kind` names their form. An absent initializer, `else` branch or returned value is left
out, and lists that are absent are empty. `Program.digest` names a program by the SHA-256 digest of
its compact text.

Decoders of recursive types take a bound on the depth of the value, and are started with its depth.
-/

namespace ShaderShrink

open Json (Decoder Failure)

/-! ## Operators -/

/-- The operators with their names in job files. -/
def UnaryOp.names : List (String × UnaryOp) := [("neg", .neg), ("not", .not), ("bit_not", .bitNot)]

/-- The name of an operator in job files. -/
def UnaryOp.name : UnaryOp → String
  | .neg => "neg"
  | .not => "not"
  | .bitNot => "bit_not"

/-- The operators with their names in job files. -/
def BinaryOp.names : List (String × BinaryOp) :=
  [("add", .add), ("sub", .sub), ("mul", .mul), ("div", .div), ("mod", .mod), ("lt", .lt),
    ("le", .le), ("gt", .gt), ("ge", .ge), ("eq", .eq), ("ne", .ne), ("and", .and), ("or", .or),
    ("assign", .assign)]

/-- The name of an operator in job files. -/
def BinaryOp.name : BinaryOp → String
  | .add => "add"
  | .sub => "sub"
  | .mul => "mul"
  | .div => "div"
  | .mod => "mod"
  | .lt => "lt"
  | .le => "le"
  | .gt => "gt"
  | .ge => "ge"
  | .eq => "eq"
  | .ne => "ne"
  | .and => "and"
  | .or => "or"
  | .assign => "assign"

/-- The operator as a JSON value. -/
def UnaryOp.toJson (op : UnaryOp) : Json := .str op.name

/-- Decodes an operator. -/
def UnaryOp.ofJson : Decoder UnaryOp := Json.choice UnaryOp.names

/-- The operator as a JSON value. -/
def BinaryOp.toJson (op : BinaryOp) : Json := .str op.name

/-- Decodes an operator. -/
def BinaryOp.ofJson : Decoder BinaryOp := Json.choice BinaryOp.names

/-! ## Expressions -/

namespace Expr

mutual

/-- An expression as a JSON value. -/
def toJson : Expr → Json
  | .int value => .obj [("kind", .str "int"), ("value", .int value.toInt)]
  | .float text => .obj [("kind", .str "float"), ("text", .str text)]
  | .bool value => .obj [("kind", .str "bool"), ("value", .bool value)]
  | .ident name => .obj [("kind", .str "ident"), ("name", .str name)]
  | .unary op e => .obj [("kind", .str "unary"), ("op", op.toJson), ("operand", e.toJson)]
  | .binary op l r =>
    .obj [("kind", .str "binary"), ("op", op.toJson), ("lhs", l.toJson), ("rhs", r.toJson)]
  | .call callee args =>
    .obj [("kind", .str "call"), ("callee", .str callee), ("args", .arr (toJsonAll args))]
  | .paren e => .obj [("kind", .str "paren"), ("inner", e.toJson)]
  | .ternary c t f =>
    .obj [("kind", .str "ternary"), ("cond", c.toJson), ("then", t.toJson),
      ("otherwise", f.toJson)]

/-- Some expressions as JSON values. -/
def toJsonAll : List Expr → List Json
  | [] => []
  | e :: rest => e.toJson :: toJsonAll rest

end

/-- The names of the forms of expressions. -/
def kinds : List String :=
  ["int", "float", "bool", "ident", "unary", "binary", "call", "paren", "ternary"]

/-- The keys of the fields of a form of expressions. -/
def keys : String → List String
  | "int" => ["value"]
  | "float" => ["text"]
  | "bool" => ["value"]
  | "ident" => ["name"]
  | "unary" => ["op", "operand"]
  | "binary" => ["op", "lhs", "rhs"]
  | "call" => ["callee", "args"]
  | "paren" => ["inner"]
  | _ => ["cond", "then", "otherwise"]

/-- The fields of a form of expressions, given a decoder of its parts. -/
def fields (part : Decoder Expr) (kind : String) : Json.Fields Expr :=
  match kind with
  | "int" => .int <$> Json.required "value" Json.int64
  | "float" => .float <$> Json.required "text" Json.string
  | "bool" => .bool <$> Json.required "value" Json.boolean
  | "ident" => .ident <$> Json.required "name" Json.string
  | "unary" => .unary <$> Json.required "op" UnaryOp.ofJson <*> Json.required "operand" part
  | "binary" =>
    .binary <$> Json.required "op" BinaryOp.ofJson
      <*> Json.required "lhs" part
      <*> Json.required "rhs" part
  | "call" =>
    .call <$> Json.required "callee" Json.string
      <*> Json.withDefault "args" [] (Json.list part)
  | "paren" => .paren <$> Json.required "inner" part
  | _ =>
    .ternary <$> Json.required "cond" part
      <*> Json.required "then" part
      <*> Json.required "otherwise" part

/-- Decodes an expression from a value that is at most `depth` levels deep. -/
def ofJsonWithin : Nat → Decoder Expr
  | 0, _, v => .error (Json.mismatch v)
  | depth + 1, source, v =>
    Json.tagged "kind" kinds
      (fun kind => Json.variant (keys kind) (fields (ofJsonWithin depth) kind)) source v

/-- Decodes an expression. -/
def ofJson : Decoder Expr := fun source v => ofJsonWithin v.depth source v

end Expr

/-! ## Statements -/

namespace Stmt

mutual

/-- A statement as a JSON value. -/
def toJson : Stmt → Json
  | .block body => .obj [("kind", .str "block"), ("body", .arr (toJsonAll body))]
  | .expr e => .obj [("kind", .str "expr"), ("expr", e.toJson)]
  | .var ty name init =>
    .obj ([("kind", .str "var"), ("ty", .str ty), ("name", .str name)]
      ++ Json.memberIfSome "init" (init.map Expr.toJson))
  | .ifElse c t f =>
    .obj ([("kind", .str "if"), ("cond", c.toJson), ("then", t.toJson)]
      ++ Json.memberIfSome "otherwise" (toJsonOption f))
  | .whileLoop c b => .obj [("kind", .str "while"), ("cond", c.toJson), ("body", b.toJson)]
  | .ret value =>
    .obj (("kind", .str "return") :: Json.memberIfSome "value" (value.map Expr.toJson))
  | .discard => .obj [("kind", .str "discard")]
  | .empty => .obj [("kind", .str "empty")]

/-- Some statements as JSON values. -/
def toJsonAll : List Stmt → List Json
  | [] => []
  | s :: rest => s.toJson :: toJsonAll rest

/-- A statement that may be absent as a JSON value that may be absent. -/
def toJsonOption : Option Stmt → Option Json
  | none => none
  | some s => some s.toJson

end

/-- The names of the forms of statements. -/
def kinds : List String := ["block", "expr", "var", "if", "while", "return", "discard", "empty"]

/-- The keys of the fields of a form of statements that has fields. -/
def keys : String → List String
  | "block" => ["body"]
  | "expr" => ["expr"]
  | "var" => ["ty", "name", "init"]
  | "if" => ["cond", "then", "otherwise"]
  | "while" => ["cond", "body"]
  | _ => ["value"]

/-- The fields of a form of statements that has fields, given a decoder of its parts. -/
def fields (part : Decoder Stmt) (kind : String) : Json.Fields Stmt :=
  match kind with
  | "block" => .block <$> Json.withDefault "body" [] (Json.list part)
  | "expr" => .expr <$> Json.required "expr" Expr.ofJson
  | "var" =>
    .var <$> Json.required "ty" Json.string
      <*> Json.required "name" Json.string
      <*> Json.omissible "init" Expr.ofJson
  | "if" =>
    .ifElse <$> Json.required "cond" Expr.ofJson
      <*> Json.required "then" part
      <*> Json.omissible "otherwise" part
  | "while" => .whileLoop <$> Json.required "cond" Expr.ofJson <*> Json.required "body" part
  | _ => .ret <$> Json.omissible "value" Expr.ofJson

/-- Decodes the rest of a statement of the given form. -/
def ofKind (part : Decoder Stmt) (kind : String) : Json.Draft → Except Failure Stmt :=
  match kind with
  | "discard" => Json.fieldless .discard
  | "empty" => Json.fieldless .empty
  | _ => Json.variant (keys kind) (fields part kind)

/-- Decodes a statement from a value that is at most `depth` levels deep. -/
def ofJsonWithin : Nat → Decoder Stmt
  | 0, _, v => .error (Json.mismatch v)
  | depth + 1, source, v =>
    Json.tagged "kind" kinds (ofKind (ofJsonWithin depth)) source v

/-- Decodes a statement. -/
def ofJson : Decoder Stmt := fun source v => ofJsonWithin v.depth source v

end Stmt

/-! ## Declarations and programs -/

namespace Param

/-- A parameter as a JSON value. -/
def toJson (p : Param) : Json := .obj [("ty", .str p.ty), ("name", .str p.name)]

/-- Decodes a parameter. -/
def ofJson : Decoder Param := Json.record ["ty", "name"] <|
  Param.mk <$> Json.required "ty" Json.string
    <*> Json.required "name" Json.string

end Param

namespace Decl

/-- A declaration as a JSON value. -/
def toJson : Decl → Json
  | .global ty name init =>
    .obj ([("kind", .str "global"), ("ty", .str ty), ("name", .str name)]
      ++ Json.memberIfSome "init" (init.map Expr.toJson))
  | .function returnType name params body =>
    .obj [("kind", .str "function"), ("return_type", .str returnType), ("name", .str name),
      ("params", .arr (params.map Param.toJson)), ("body", .arr (Stmt.toJsonAll body))]

/-- The fields of a declaration of a variable. -/
def globalFields : Json.Fields Decl :=
  .global <$> Json.required "ty" Json.string
    <*> Json.required "name" Json.string
    <*> Json.omissible "init" Expr.ofJson

/-- The fields of a declaration of a function. -/
def functionFields : Json.Fields Decl :=
  .function <$> Json.required "return_type" Json.string
    <*> Json.required "name" Json.string
    <*> Json.withDefault "params" [] (Json.list Param.ofJson)
    <*> Json.withDefault "body" [] (Json.list Stmt.ofJson)

/-- Decodes a declaration. -/
def ofJson : Decoder Decl := Json.tagged "kind" ["global", "function"] fun kind =>
  match kind with
  | "global" => Json.variant ["ty", "name", "init"] globalFields
  | _ => Json.variant ["return_type", "name", "params", "body"] functionFields

end Decl

namespace Program

/-- A program as a JSON value. -/
def toJson (p : Program) : Json := .obj [("declarations", .arr (p.declarations.map Decl.toJson))]

/-- Decodes a program. -/
def ofJson : Decoder Program := Json.record ["declarations"] <|
  Program.mk <$> Json.withDefault "declarations" [] (Json.list Decl.ofJson)

/-- The compact text of a program. -/
def encode (p : Program) : String := p.toJson.compact

/-- The name of a program by its contents: the SHA-256 digest of its compact text. -/
def digest (p : Program) : String := "sha256:" ++ Digest.sha256Hex p.encode.toUTF8.toList

end Program

end ShaderShrink

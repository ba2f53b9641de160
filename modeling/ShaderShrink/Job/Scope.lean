import ShaderShrink.Job.Basic

/-!
# Static validation

A job can only run if its text decodes, its program has an entry point, and every identifier of the
program is declared where it is used. `Program.check` finds the first violation of these rules in
the order of the text.

Names are declared in scopes: one for globals, one for the parameters of a function together with
the top level of its body, one per block, and one per branch or loop body. A name whose text starts
with `gl_` is built in. Functions and called names are not declared or used in this sense, since
most called names are built in.
-/

namespace ShaderShrink

open Json (Failure)

/-- Why a job is not valid. -/
inductive ValidationError where
  /-- The text of the job could not be decoded. -/
  | undecodable (cause : Failure)
  /-- No function has the name of the entry point. -/
  | missingEntryPoint (entry : String)
  /-- A name is used where no declaration of it is in scope. -/
  | undeclaredIdentifier (name : String)
  /-- A scope declares a name twice. -/
  | duplicateDeclaration (name : String)
  deriving DecidableEq, Repr

/-- What is said about a job that is not valid. -/
def ValidationError.message : ValidationError → String
  | .undecodable cause => "job file could not be decoded: " ++ cause.category
  | .missingEntryPoint entry => "program has no `" ++ entry ++ "` function"
  | .undeclaredIdentifier name =>
    "identifier `" ++ name ++ "` is used outside the scope of any declaration"
  | .duplicateDeclaration name => "`" ++ name ++ "` is declared twice in the same scope"

/-- The scopes around a place in a program: the names that the innermost scope declares so far, and
the scopes around it, from the inside out. -/
structure Scopes where
  innermost : List String
  outer : List (List String)
  deriving DecidableEq, Repr, Inhabited

namespace Scopes

/-- The scopes at the start of a program: only that of globals, without a declaration. -/
def top : Scopes := ⟨[], []⟩

/-- The scopes at the start of a new innermost scope. -/
def enter (s : Scopes) : Scopes := ⟨[], s.innermost :: s.outer⟩

/-- Whether names with this text are built in. -/
def isBuiltIn (name : String) : Bool := "gl_".toList.isPrefixOf name.toList

/-- Whether a name may be used. -/
def sees (s : Scopes) (name : String) : Bool :=
  isBuiltIn name || s.innermost.contains name || s.outer.any (·.contains name)

/-- Declares a name in the innermost scope. -/
def declare (s : Scopes) (name : String) : Except ValidationError Scopes :=
  if s.innermost.contains name then .error (.duplicateDeclaration name)
  else .ok { s with innermost := name :: s.innermost }

end Scopes

namespace Expr

mutual

/-- Checks the names that an expression uses. -/
def check (s : Scopes) : Expr → Except ValidationError Unit
  | .ident name => if s.sees name then .ok () else .error (.undeclaredIdentifier name)
  | .unary _ e => e.check s
  | .binary _ l r => do
    l.check s
    r.check s
  | .call _ args => checkAll s args
  | .paren e => e.check s
  | .ternary c t f => do
    c.check s
    t.check s
    f.check s
  | _ => .ok ()

/-- Checks the names that some expressions use. -/
def checkAll (s : Scopes) : List Expr → Except ValidationError Unit
  | [] => .ok ()
  | e :: rest => do
    e.check s
    checkAll s rest

end

/-- Checks the names that an expression uses, if there is one. -/
def checkOption (s : Scopes) (e : Option Expr) : Except ValidationError Unit :=
  e.elim (.ok ()) (·.check s)

end Expr

namespace Stmt

mutual

/-- Checks a statement and gives the scopes behind it. -/
def check (s : Scopes) : Stmt → Except ValidationError Scopes
  | .block body => do
    let _ ← checkAll s.enter body
    return s
  | .expr e => do
    e.check s
    return s
  | .var _ name init => do
    Expr.checkOption s init
    s.declare name
  | .ifElse cond onTrue onFalse => do
    cond.check s
    let _ ← onTrue.check s.enter
    let _ ← checkOption s onFalse
    return s
  | .whileLoop cond body => do
    cond.check s
    let _ ← body.check s.enter
    return s
  | .ret value => do
    Expr.checkOption s value
    return s
  | .discard => .ok s
  | .empty => .ok s

/-- Checks statements in their order and gives the scopes behind them. -/
def checkAll (s : Scopes) : List Stmt → Except ValidationError Scopes
  | [] => .ok s
  | stmt :: rest => do
    let s ← stmt.check s
    checkAll s rest

/-- Checks a branch that may be absent, in a scope of its own. -/
def checkOption (s : Scopes) : Option Stmt → Except ValidationError Scopes
  | none => .ok s
  | some stmt => do
    let _ ← stmt.check s.enter
    return s

end

end Stmt

/-- Checks a declaration and gives the scopes behind it. -/
def Decl.check (s : Scopes) : Decl → Except ValidationError Scopes
  | .global _ name init => do
    Expr.checkOption s init
    s.declare name
  | .function _ _ params body => do
    let inside ← params.foldlM (fun s p => s.declare p.name) s.enter
    let _ ← Stmt.checkAll inside body
    return s

namespace Program

/-- Checks the scopes of a program. -/
def checkScopes (p : Program) : Except ValidationError Scopes :=
  p.declarations.foldlM Decl.check Scopes.top

/-- Finds the first violation of the rules in a program. -/
def check (p : Program) : Except ValidationError Unit := do
  if !p.declarations.any (Decl.isFunction entryPoint) then
    throw (.missingEntryPoint entryPoint)
  let _ ← p.checkScopes
  return ()

end Program

/-- Decodes the text of a job and checks its program. -/
def ShaderJob.validate (text : String) : Except ValidationError ShaderJob :=
  match ShaderJob.decode text with
  | .error cause => .error (.undecodable cause)
  | .ok job => job.program.check.map fun _ => job

end ShaderShrink

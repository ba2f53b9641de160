import ShaderShrink.Program.Coding
import ShaderShrink.Proofs.Program.Place

/-!
# How deep programs nest

How many arrays and objects the JSON value of a program nests inside each other is read off its
outline (`Program.depth_toJson`): a node puts an object around what its parts say, and a list puts
an array around it besides (`Payload.brackets`). Where a part gives way to parts that nest no
deeper, the whole outline nests no deeper than before (`Outline.nesting_splice_le`).
-/

namespace ShaderShrink

namespace Payload

/-- How many arrays and objects stand around the parts of a node. A function takes its statements
out of the block that is its only part, with the object and the array of the block. -/
def brackets : Payload → Nat
  | .unit | .block | .call _ => 2
  | .function .. => 0
  | _ => 1

/-- How many arrays and objects the parameters of a function nest, with those around them. -/
def parameterDepth : Payload → Nat
  | .function _ _ params => Json.depthItems (params.map Param.toJson) + 2
  | _ => 0

end Payload

namespace Outline

mutual

/-- How many arrays and objects an outline nests inside each other. -/
def nesting : Outline → Nat
  | .node data parts => max data.parameterDepth (nestingAll parts + data.brackets)

/-- How many arrays and objects the deepest of some outlines nests inside each other. -/
def nestingAll : List Outline → Nat
  | [] => 0
  | t :: rest => max t.nesting (nestingAll rest)

end

section
variable {t u old : Outline} {ts us stays : List Outline} {data : Payload} {i : Nat}
  {path : List Nat}

/-- A node that has no parameters. -/
theorem nesting_node (h : data.parameterDepth = 0) :
    (node data ts).nesting = nestingAll ts + data.brackets := by
  rw [nesting, h, Nat.zero_max]

/-- Outlines side by side nest as deep as the deepest of them. -/
theorem nestingAll_append : nestingAll (ts ++ us) = max (nestingAll ts) (nestingAll us) := by
  induction ts with
  | nil => simp [nestingAll]
  | cons t rest ih => rw [List.cons_append, nestingAll, nestingAll, ih, Nat.max_assoc]

/-- Some outlines nest as deep as one of them and those beside it. -/
theorem nestingAll_eq (h : ts[i]? = some t) : nestingAll ts =
    max (nestingAll (ts.take i)) (max t.nesting (nestingAll (ts.drop (i + 1)))) := by
  conv_lhs => rw [eq_take_append_drop h]
  rw [nestingAll_append, nestingAll]

/-- A part nests no deeper than what it is a part of. -/
theorem nesting_le_of_part (h : t.parts[i]? = some u) : u.nesting ≤ t.nesting := by
  obtain ⟨data, parts⟩ := t
  have hparts := nestingAll_eq (show parts[i]? = some u from h)
  rw [nesting]
  omega

/-- Parts that nest no deeper than the one that gives way to them make no outline nest deeper. -/
theorem nesting_splice_le (h : t.part? (path ++ [i]) = some old)
    (hstays : nestingAll stays ≤ old.nesting) : (t.splice stays i path).nesting ≤ t.nesting := by
  induction path generalizing t with
  | nil =>
    obtain ⟨data, parts⟩ := t
    have hold : parts[i]? = some old := by rwa [List.nil_append, part?_singleton] at h
    have hparts := nestingAll_eq hold
    rw [splice, nesting, nesting, nestingAll_append, nestingAll_append]
    omega
  | cons k path ih =>
    obtain ⟨data, parts⟩ := t
    obtain ⟨u, hu, hold⟩ := part?_cons_eq_some_iff.1 h
    have hu : parts[k]? = some u := hu
    have hinside := ih hold
    have hparts := nestingAll_eq hu
    rw [splice, nesting, nesting, modify_eq_take_append_drop _ hu, nestingAll_append, nestingAll]
    omega

end

end Outline

/-! ## The nesting of programs -/

open Json (depthItems)
open Outline (nesting_node nestingAll)

/-- A member that is left out nests nothing. -/
theorem Json.depthMembers_memberIfSome (key : String) (v : Option Json) :
    depthMembers (memberIfSome key v) = depthItems v.toList := by
  cases v <;> rfl

mutual

/-- The encoding of an expression nests as its outline is said to. -/
theorem Expr.depth_toJson : ∀ e : Expr, e.toJson.depth = e.outline.nesting
  | .int _ | .float _ | .bool _ | .ident _ => rfl
  | .unary _ e | .paren e => by
    rw [Expr.outline, nesting_node rfl, nestingAll, nestingAll, ← e.depth_toJson]
    simp [Expr.toJson, Json.depth, Json.depthMembers, UnaryOp.toJson, Payload.brackets]
  | .binary _ l r => by
    rw [Expr.outline, nesting_node rfl, nestingAll, nestingAll, nestingAll, ← l.depth_toJson,
      ← r.depth_toJson]
    simp [Expr.toJson, Json.depth, Json.depthMembers, BinaryOp.toJson, Payload.brackets]
  | .call _ args => by
    rw [Expr.outline, nesting_node rfl, ← Expr.depthItems_toJsonAll args]
    simp [Expr.toJson, Json.depth, Json.depthMembers, Payload.brackets]
  | .ternary c t f => by
    rw [Expr.outline, nesting_node rfl, nestingAll, nestingAll, nestingAll, nestingAll,
      ← c.depth_toJson, ← t.depth_toJson, ← f.depth_toJson]
    simp [Expr.toJson, Json.depth, Json.depthMembers, Payload.brackets]

/-- The encodings of expressions nest as their outlines are said to. -/
theorem Expr.depthItems_toJsonAll : ∀ es : List Expr,
    depthItems (Expr.toJsonAll es) = nestingAll (Expr.outlineAll es)
  | [] => rfl
  | e :: rest => by
    rw [Expr.toJsonAll, depthItems, e.depth_toJson, Expr.depthItems_toJsonAll rest,
      Expr.outlineAll, nestingAll]

end

/-- The encoding of an expression that may be missing nests as its outline is said to. -/
theorem Expr.depthItems_toList (e : Option Expr) :
    depthItems (e.map Expr.toJson).toList = nestingAll (Expr.outlineOption e) := by
  cases e with
  | none => rfl
  | some e => exact congrArg (max · 0) e.depth_toJson

mutual

/-- The encoding of a statement nests as its outline is said to. -/
theorem Stmt.depth_toJson : ∀ s : Stmt, s.toJson.depth = s.outline.nesting
  | .discard | .empty => rfl
  | .block body => by
    rw [Stmt.outline, nesting_node rfl, ← Stmt.depthItems_toJsonAll body]
    simp [Stmt.toJson, Json.depth, Json.depthMembers, Payload.brackets]
  | .expr e => by
    rw [Stmt.outline, nesting_node rfl, nestingAll, nestingAll, ← e.depth_toJson]
    simp [Stmt.toJson, Json.depth, Json.depthMembers, Payload.brackets]
  | .var _ _ init | .ret init => by
    rw [Stmt.outline, nesting_node rfl, ← Expr.depthItems_toList]
    simp [Stmt.toJson, Json.depth, Json.depthMembers, Json.depthMembers_memberIfSome,
      Payload.brackets]
  | .ifElse c t f => by
    rw [Stmt.outline, nesting_node rfl, nestingAll, nestingAll, ← c.depth_toJson,
      ← t.depth_toJson, ← Stmt.depthItems_toJsonOption f]
    simp [Stmt.toJson, Json.depth, Json.depthMembers, Json.depthMembers_memberIfSome,
      Payload.brackets]
  | .whileLoop c b => by
    rw [Stmt.outline, nesting_node rfl, nestingAll, nestingAll, nestingAll, ← c.depth_toJson,
      ← b.depth_toJson]
    simp [Stmt.toJson, Json.depth, Json.depthMembers, Payload.brackets]

/-- The encodings of statements nest as their outlines are said to. -/
theorem Stmt.depthItems_toJsonAll : ∀ ss : List Stmt,
    depthItems (Stmt.toJsonAll ss) = nestingAll (Stmt.outlineAll ss)
  | [] => rfl
  | s :: rest => by
    rw [Stmt.toJsonAll, depthItems, s.depth_toJson, Stmt.depthItems_toJsonAll rest,
      Stmt.outlineAll, nestingAll]

/-- The encoding of a branch that may be missing nests as its outline is said to. -/
theorem Stmt.depthItems_toJsonOption : ∀ s : Option Stmt,
    depthItems (Stmt.toJsonOption s).toList = nestingAll (Stmt.outlineOption s)
  | none => rfl
  | some s => congrArg (max · 0) s.depth_toJson

end

/-- The encoding of a declaration nests as its outline is said to. -/
theorem Decl.depth_toJson (d : Decl) : d.toJson.depth = d.outline.nesting := by
  cases d with
  | global ty name init =>
    rw [Decl.outline, nesting_node rfl, ← Expr.depthItems_toList]
    simp [Decl.toJson, Json.depth, Json.depthMembers, Json.depthMembers_memberIfSome,
      Payload.brackets]
  | function returnType name params body =>
    have hbody : (Outline.node .block (Stmt.outlineAll body)).nesting =
        depthItems (Stmt.toJsonAll body) + 2 := by
      rw [nesting_node rfl, Stmt.depthItems_toJsonAll]
      rfl
    rw [Decl.outline, Outline.nesting, nestingAll, nestingAll, hbody]
    simp [Decl.toJson, Json.depth, Json.depthMembers, Payload.brackets, Payload.parameterDepth]

/-- How deep the JSON value of a program nests is read off its outline. -/
theorem Program.depth_toJson (p : Program) : p.toJson.depth = p.outline.nesting := by
  have hitems (ds : List Decl) :
      depthItems (ds.map Decl.toJson) = nestingAll (ds.map Decl.outline) := by
    induction ds with
    | nil => rfl
    | cons d rest ih =>
      rw [List.map_cons, List.map_cons, depthItems, nestingAll, ih, d.depth_toJson]
  rw [Program.outline, nesting_node rfl, ← hitems]
  simp [Program.toJson, Json.depth, Json.depthMembers, Payload.brackets]

end ShaderShrink

import ShaderShrink.Program.Coding
import ShaderShrink.Proofs.Json.Decoding

/-!
# Programs survive their encoding

The decoders of operators, expressions, statements, declarations and programs read what the encoders
give (`Program.reads_toJson`), and all integers in it fit a word (`Program.legible_toJson`). A value
whose form is told by its member `kind` is taken in whole before its parts are decoded, so a part is
read with a bound that is as deep as the part at least.
-/

namespace ShaderShrink

open Json (Reads)
open Json.Fields

/-- An operator of one operand is decoded from its encoding. -/
theorem UnaryOp.reads_toJson (op : UnaryOp) : Reads ofJson op.toJson op :=
  Json.reads_choice (by cases op <;> rfl)

/-- An operator of two operands is decoded from its encoding. -/
theorem BinaryOp.reads_toJson (op : BinaryOp) : Reads ofJson op.toJson op :=
  Json.reads_choice (by cases op <;> rfl)

/-! ## Expressions -/

namespace Expr

/-- An expression is read by its form if its parts are. -/
theorem reads_kind (kind : String) {members : List (String × Json)} {d n : Nat} {e : Expr}
    (hfields : (fields (ofJsonWithin n) kind).Gives members d e)
    (hkind : kind ∈ kinds) (hkeys : (members.map (·.1)).Sublist (keys kind)) :
    Reads (ofJsonWithin (n + 1)) (.obj (("kind", .str kind) :: members)) e := by
  have hnd : ∀ kind ∈ kinds, ("kind" :: keys kind).Nodup := by decide
  exact Json.reads_variant _ hfields rfl hkind hkeys (hnd kind hkind)

mutual

/-- An expression is read with any bound that its value is not deeper than: its parts are less deep,
so the bound that is left suffices for them. -/
theorem reads_within : ∀ (e : Expr) {n : Nat}, e.toJson.depth ≤ n →
    Reads (ofJsonWithin n) e.toJson e
  | .int value, n + 1, _ =>
    reads_kind "int" (.map int (gives_required rfl (Json.reads_int64 value))) (by decide) (.refl _)
  | .float text, n + 1, _ =>
    reads_kind "float" (.map float (gives_required rfl (Json.reads_string text))) (by decide)
      (.refl _)
  | .bool value, n + 1, _ =>
    reads_kind "bool" (.map bool (gives_required rfl (Json.reads_boolean value))) (by decide)
      (.refl _)
  | .ident name, n + 1, _ =>
    reads_kind "ident" (.map ident (gives_required rfl (Json.reads_string name))) (by decide)
      (.refl _)
  | .unary op e, n + 1, h => by
    obtain ⟨-, -, he, -⟩ := Json.depths_le h
    exact reads_kind "unary" (.seq (.map unary (gives_required rfl op.reads_toJson))
      (gives_required rfl (reads_within e he))) (by decide) (.refl _)
  | .binary op l r, n + 1, h => by
    obtain ⟨-, -, hl, hr, -⟩ := Json.depths_le h
    exact reads_kind "binary" (.seq (.seq (.map binary (gives_required rfl op.reads_toJson))
      (gives_required rfl (reads_within l hl))) (gives_required rfl (reads_within r hr)))
      (by decide) (.refl _)
  | .call callee args, n + 1, h => by
    obtain ⟨-, -, hargs, -⟩ := Json.depths_le h
    exact reads_kind "call" (.seq (.map call (gives_required rfl (Json.reads_string callee)))
      (gives_withDefault rfl (Json.reads_list (reads_withinAll args (Nat.le_of_succ_le hargs)))))
      (by decide) (.refl _)
  | .paren e, n + 1, h => by
    obtain ⟨-, he, -⟩ := Json.depths_le h
    exact reads_kind "paren" (.map paren (gives_required rfl (reads_within e he))) (by decide)
      (.refl _)
  | .ternary c t f, n + 1, h => by
    obtain ⟨-, hc, ht, hf, -⟩ := Json.depths_le h
    exact reads_kind "ternary" (.seq (.seq (.map ternary (gives_required rfl (reads_within c hc)))
      (gives_required rfl (reads_within t ht))) (gives_required rfl (reads_within f hf)))
      (by decide) (.refl _)

/-- Expressions are decoded from their encodings if these do not nest too deep. -/
theorem reads_withinAll : ∀ (es : List Expr) {n : Nat}, Json.depthItems (toJsonAll es) ≤ n →
    List.Forall₂ (Reads (ofJsonWithin n)) (toJsonAll es) es
  | [], _, _ => .nil
  | e :: rest, _, h => by
    obtain ⟨he, hrest⟩ := Nat.max_le.1 h
    exact .cons (reads_within e he) (reads_withinAll rest hrest)

end

/-- A decoder that goes by the depth of the value reads it. -/
theorem reads_toJson (e : Expr) : Reads ofJson e.toJson e := by
  intro source
  rw [ofJson, Json.depth_draft]
  exact reads_within e (Nat.le_refl _) source

/-- No expression is encoded as null. -/
theorem toJson_ne_null (e : Expr) : e.toJson ≠ .null := by
  cases e <;> nofun

mutual

/-- The encoding of an expression has no integer beyond a word. -/
theorem legible_toJson : ∀ e : Expr, e.toJson.Legible
  | .int value => ⟨trivial, Json.legible_int64 value, trivial⟩
  | .float _ | .bool _ | .ident _ => ⟨trivial, trivial, trivial⟩
  | .unary _ e => ⟨trivial, trivial, legible_toJson e, trivial⟩
  | .binary _ l r => ⟨trivial, trivial, legible_toJson l, legible_toJson r, trivial⟩
  | .call _ args => ⟨trivial, trivial, legible_toJsonAll args, trivial⟩
  | .paren e => ⟨trivial, legible_toJson e, trivial⟩
  | .ternary c t f =>
    ⟨trivial, legible_toJson c, legible_toJson t, legible_toJson f, trivial⟩

/-- The encodings of expressions have no integers beyond a word. -/
theorem legible_toJsonAll : ∀ es : List Expr, Json.LegibleItems (toJsonAll es)
  | [] => trivial
  | e :: rest => ⟨legible_toJson e, legible_toJsonAll rest⟩

end

end Expr

/-! ## Statements -/

namespace Stmt

/-- A branch that is there is encoded as a statement. -/
theorem toJsonOption_eq_map (s : Option Stmt) : toJsonOption s = s.map toJson := by
  cases s <;> rfl

/-- No statement is encoded as null. -/
theorem toJson_ne_null (s : Stmt) : s.toJson ≠ .null := by
  cases s <;> nofun

/-- A statement of a form that has fields is read by its form if its parts are. -/
theorem reads_kind (kind : String) {members : List (String × Json)} {d n : Nat} {s : Stmt}
    (hfields : (fields (ofJsonWithin n) kind).Gives members d s)
    (hkind : kind ∈ ["block", "expr", "var", "if", "while", "return"])
    (hkeys : (members.map (·.1)).Sublist (keys kind)) :
    Reads (ofJsonWithin (n + 1)) (.obj (("kind", .str kind) :: members)) s := by
  have hwell : ∀ kind ∈ ["block", "expr", "var", "if", "while", "return"],
      kind ∈ kinds ∧ ("kind" :: keys kind).Nodup := by decide
  have hvariant : ofKind (ofJsonWithin n) kind =
      Json.variant (keys kind) (fields (ofJsonWithin n) kind) := by
    unfold ofKind
    split
    · simp at hkind
    · simp at hkind
    · rfl
  obtain ⟨hknown, hnd⟩ := hwell kind hkind
  exact Json.reads_variant _ hfields hvariant hknown hkeys hnd

mutual

/-- A statement is read with any bound that its value is not deeper than. Expressions in it are read
with bounds of their own. -/
theorem reads_within : ∀ (s : Stmt) {n : Nat}, s.toJson.depth ≤ n →
    Reads (ofJsonWithin n) s.toJson s
  | .block body, n + 1, h => by
    obtain ⟨-, hbody, -⟩ := Json.depths_le h
    exact reads_kind "block" (.map block (gives_withDefault rfl
      (Json.reads_list (reads_withinAll body (Nat.le_of_succ_le hbody))))) (by decide) (.refl _)
  | .expr e, n + 1, _ =>
    reads_kind "expr" (.map expr (gives_required rfl e.reads_toJson)) (by decide) (.refl _)
  | .var ty name init, n + 1, _ => by
    have hinit := Json.lookup_memberIfSome "init" (init.map Expr.toJson)
    exact reads_kind "var" (.seq (.seq (.map var (gives_required rfl (Json.reads_string ty)))
      (gives_required rfl (Json.reads_string name)))
      (gives_omissible hinit Expr.toJson_ne_null fun e _ => e.reads_toJson)) (by decide)
      (.cons_cons _ (.cons_cons _ (Json.keys_memberIfSome ..)))
  | .ifElse c t f, n + 1, h => by
    obtain ⟨-, -, ht, hf⟩ := Json.depths_le h
    have hotherwise :=
      (Json.lookup_memberIfSome "otherwise" (toJsonOption f)).trans (toJsonOption_eq_map f)
    exact reads_kind "if" (.seq (.seq (.map ifElse (gives_required rfl c.reads_toJson))
      (gives_required rfl (reads_within t ht)))
      (gives_omissible hotherwise toJson_ne_null (reads_withinOption f hf))) (by decide)
      (.cons_cons _ (.cons_cons _ (Json.keys_memberIfSome ..)))
  | .whileLoop c b, n + 1, h => by
    obtain ⟨-, -, hb, -⟩ := Json.depths_le h
    exact reads_kind "while" (.seq (.map whileLoop (gives_required rfl c.reads_toJson))
      (gives_required rfl (reads_within b hb))) (by decide) (.refl _)
  | .ret value, n + 1, _ => by
    have hvalue := Json.lookup_memberIfSome "value" (value.map Expr.toJson)
    exact reads_kind "return" (.map ret (gives_omissible hvalue Expr.toJson_ne_null
      fun e _ => e.reads_toJson)) (by decide) (Json.keys_memberIfSome ..)
  | .discard, n + 1, _ => Json.reads_tagged (by decide) nofun rfl
  | .empty, n + 1, _ => Json.reads_tagged (by decide) nofun rfl

/-- Statements are decoded from their encodings if these do not nest too deep. -/
theorem reads_withinAll : ∀ (ss : List Stmt) {n : Nat}, Json.depthItems (toJsonAll ss) ≤ n →
    List.Forall₂ (Reads (ofJsonWithin n)) (toJsonAll ss) ss
  | [], _, _ => .nil
  | s :: rest, _, h => by
    obtain ⟨hs, hrest⟩ := Nat.max_le.1 h
    exact .cons (reads_within s hs) (reads_withinAll rest hrest)

/-- A branch is decoded from its encoding if this does not nest too deep. -/
theorem reads_withinOption : ∀ (o : Option Stmt) {n : Nat},
    Json.DepthsLe n (Json.memberIfSome "otherwise" (toJsonOption o)) →
    ∀ s ∈ o, Reads (ofJsonWithin n) s.toJson s
  | some s, _, h, _, rfl => reads_within s h.1

end

/-- A decoder that goes by the depth of the value reads it. -/
theorem reads_toJson (s : Stmt) : Reads ofJson s.toJson s := by
  intro source
  rw [ofJson, Json.depth_draft]
  exact reads_within s (Nat.le_refl _) source

/-- Statements are encoded one by one. -/
theorem toJsonAll_eq_map (ss : List Stmt) : toJsonAll ss = ss.map toJson := by
  induction ss with
  | nil => rfl
  | cons s rest ih => rw [toJsonAll, ih, List.map_cons]

mutual

/-- The encoding of a statement has no integer beyond a word. -/
theorem legible_toJson : ∀ s : Stmt, s.toJson.Legible
  | .block body => ⟨trivial, legible_toJsonAll body, trivial⟩
  | .expr e => ⟨trivial, e.legible_toJson, trivial⟩
  | .var _ _ none => ⟨trivial, trivial, trivial, trivial⟩
  | .var _ _ (some init) => ⟨trivial, trivial, trivial, init.legible_toJson, trivial⟩
  | .ifElse c t none => ⟨trivial, c.legible_toJson, legible_toJson t, trivial⟩
  | .ifElse c t (some f) =>
    ⟨trivial, c.legible_toJson, legible_toJson t, legible_toJson f, trivial⟩
  | .whileLoop c b => ⟨trivial, c.legible_toJson, legible_toJson b, trivial⟩
  | .ret none => ⟨trivial, trivial⟩
  | .ret (some e) => ⟨trivial, e.legible_toJson, trivial⟩
  | .discard | .empty => ⟨trivial, trivial⟩

/-- The encodings of statements have no integers beyond a word. -/
theorem legible_toJsonAll : ∀ ss : List Stmt, Json.LegibleItems (toJsonAll ss)
  | [] => trivial
  | s :: rest => ⟨legible_toJson s, legible_toJsonAll rest⟩

end

end Stmt

/-! ## Declarations and programs -/

/-- A parameter is decoded from its encoding. -/
theorem Param.reads_toJson (p : Param) : Reads ofJson p.toJson p :=
  Json.reads_record (.seq (.map mk (gives_required rfl (Json.reads_string p.ty)))
    (gives_required rfl (Json.reads_string p.name))) rfl (.refl _) (by decide)

/-- The encoding of a parameter has no integer at all. -/
theorem Param.legible_toJson (p : Param) : p.toJson.Legible := ⟨trivial, trivial, trivial⟩

namespace Decl

/-- A declaration is decoded from its encoding. -/
theorem reads_toJson (d : Decl) : Reads ofJson d.toJson d := by
  cases d with
  | global ty name init =>
    have hinit := Json.lookup_memberIfSome "init" (init.map Expr.toJson)
    exact Json.reads_variant globalFields (.seq (.seq (.map global
      (gives_required rfl (Json.reads_string ty))) (gives_required rfl (Json.reads_string name)))
      (gives_omissible hinit Expr.toJson_ne_null fun e _ => e.reads_toJson)) rfl (by decide)
      (.cons_cons _ (.cons_cons _ (Json.keys_memberIfSome ..))) (by decide)
  | function returnType name params body =>
    have hparams := Json.reads_list_map params fun p _ => p.reads_toJson
    have hbody := Json.reads_list_map body fun s _ => s.reads_toJson
    rw [← Stmt.toJsonAll_eq_map] at hbody
    exact Json.reads_variant functionFields (.seq (.seq (.seq (.map function
      (gives_required rfl (Json.reads_string returnType)))
      (gives_required rfl (Json.reads_string name))) (gives_withDefault rfl hparams))
      (gives_withDefault rfl hbody)) rfl (by decide) (.refl _) (by decide)

/-- The encoding of a declaration has no integer beyond a word. -/
theorem legible_toJson (d : Decl) : d.toJson.Legible := by
  cases d with
  | global ty name init =>
    cases init with
    | none => exact ⟨trivial, trivial, trivial, trivial⟩
    | some e => exact ⟨trivial, trivial, trivial, e.legible_toJson, trivial⟩
  | function returnType name params body =>
    have hparams : Json.LegibleItems (params.map Param.toJson) :=
      Json.legibleItems_map fun p _ => p.legible_toJson
    exact ⟨trivial, trivial, trivial, hparams, Stmt.legible_toJsonAll body, trivial⟩

end Decl

/-- A program is decoded from its encoding. -/
theorem Program.reads_toJson (p : Program) : Reads ofJson p.toJson p := by
  have hdeclarations := Json.reads_list_map p.declarations fun d _ => d.reads_toJson
  exact Json.reads_record (.map mk (gives_withDefault rfl hdeclarations))
    (by simp [Json.depthMembers]) (.refl _) (by decide)

/-- The encoding of a program has no integer beyond a word. -/
theorem Program.legible_toJson (p : Program) : p.toJson.Legible :=
  ⟨Json.legibleItems_map fun d _ => d.legible_toJson, trivial⟩

end ShaderShrink

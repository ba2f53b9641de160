import ShaderShrink.Proofs.Job.Hoisting
import ShaderShrink.Proofs.Job.Tokens
import ShaderShrink.Proofs.Reduction.Skeleton

/-!
# Changes that keep a program valid

A change can only make a valid program invalid by taking a declaration of a name away from the
places where the name is used, or by moving one to a scope that declares the name already.
`Change.SparesNames` rules this out, and `Change.check_of_spares` says that what is found in a valid
program then leads to valid ones.

A local edit exchanges what one part says about names (`Outline.covers_splice`). An operand uses
some of the names that the expression uses, a statement that is no declaration leaves no names
behind, and it can do without a scope that it is alone in; so the part covers what stays of it
(`Change.Leaves.covers`).
-/

namespace ShaderShrink

open Arena ScopeToken

/-- The parts of an outline that fits are taken where they are, and fit. -/
theorem Outline.Fits.taken {t u : Outline} {i : Nat} (h : t.Fits) (hu : t.parts[i]? = some u) :
    TakenAt t.data i u ∧ u.Fits := by
  obtain ⟨data, parts⟩ := t
  exact (Outline.fits_iff.1 h).2 i u hu

/-- What is at a position of an outline that fits, fits. -/
theorem Outline.Fits.part {t u : Outline} {path : List Nat} (h : t.Fits)
    (hu : t.part? path = some u) : u.Fits := by
  induction path generalizing t with
  | nil =>
    cases hu
    exact h
  | cons k path ih =>
    obtain ⟨v, hv, hu⟩ := Outline.part?_cons_eq_some_iff.1 hu
    exact ih (h.taken hv).2 hu

/-! ## What covers what -/

/-- An operand uses some of the names that the expression uses, and a literal uses none. -/
theorem Expr.covers_of_sublist (e : Expr) {us : List ScopeToken}
    (h : us.Sublist e.outline.scopeTokens) : Covers e.outline.scopeTokens us := by
  rw [e.scopeTokens_outline] at h ⊢
  exact ScopeToken.covers_of_sublist e.eq_use_of_mem h

/-- An operand says what it says among what the expression says. -/
theorem Outline.scopeTokens_sublist {old part : Outline} {k : Nat}
    (hcat : old.data.category = .expression) (hpart : old.parts[k]? = some part) :
    part.scopeTokens.Sublist old.scopeTokens := by
  obtain ⟨data, parts⟩ := old
  have hinside : part.scopeTokens.Sublist (parts.flatMap Outline.scopeTokens) :=
    List.sublist_flatten_of_mem (List.mem_map_of_mem (List.mem_of_getElem? hpart))
  rw [Outline.scopeTokens_node data (Payload.isFlat_of_expression hcat)]
  cases data with
  | ident name => exact hinside.cons _
  | unit | global | function | block | exprStmt | var | ifElse | whileLoop | ret | discard
    | empty => cases hcat
  | _ => exact hinside

namespace Stmt

variable {x : Stmt}

/-- Checking a statement is reading the tokens of its outline. -/
theorem readAll_outline (x : Stmt) (s : Scopes) :
    s.readAll x.outline.scopeTokens = x.check s := by
  rw [x.scopeTokens_outline, x.readAll_scopeTokens]

/-- A statement that is no declaration covers nothing at all. -/
theorem covers_nil (hx : x.DeclaresNothing) : Covers x.outline.scopeTokens [] := by
  intro s s' h
  rw [readAll_outline] at h
  rw [check_eq_self hx h]
  rfl

/-- A statement declares nothing unless it is a declaration of a variable. -/
theorem declaresNothing_of_data (h : ∀ ty name, x.outline.data ≠ .var ty name) :
    x.DeclaresNothing := by
  rintro ty name init rfl
  exact h ty name rfl

/-- The statement inside a compound statement is checked in a scope of its own, which it shares with
others only if it is one of several in a block. -/
theorem exists_inner {k : Nat} {part : Outline} (hpart : x.outline.parts[k]? = some part)
    (hcat : part.data.category = .statement)
    (hone : x.outline.data = .block → x.outline.parts.length = 1) :
    ∃ y : Stmt, y.outline = part ∧ x.DeclaresNothing ∧
      ∀ s s', x.check s = .ok s' → ∃ s₁, y.check s.enter = .ok s₁ := by
  have hfits := x.fits_outline
  have hexpr {e : Expr} (he : e.outline = part) : False := by
    have := of_decide_eq_true (he ▸ e.accepts_outline)
    rw [hcat] at this
    cases this
  cases x with
  | block body =>
    match body, hone rfl with
    | [y], _ =>
      obtain ⟨rfl, rfl⟩ : k = 0 ∧ y.outline = part := by
        cases k with
        | zero => exact ⟨rfl, Option.some.inj hpart⟩
        | succ k => cases hpart
      refine ⟨y, rfl, nofun, fun s s' h => ?_⟩
      obtain ⟨_, h, -⟩ := Except.bind_eq_ok_iff.1 h
      obtain ⟨s₁, h, -⟩ := Except.bind_eq_ok_iff.1 h
      exact ⟨s₁, h⟩
  | ifElse c y f =>
    refine match k, f, hpart with
      | 0, _, h => (hexpr (Option.some.inj h)).elim
      | 1, _, h => ⟨y, Option.some.inj h, nofun, fun s s' hs => ?_⟩
      | 2, some z, h => ⟨z, Option.some.inj h, nofun, fun s s' hs => ?_⟩
    · obtain ⟨_, -, hs⟩ := Except.bind_eq_ok_iff.1 hs
      obtain ⟨s₁, hs, -⟩ := Except.bind_eq_ok_iff.1 hs
      exact ⟨s₁, hs⟩
    · obtain ⟨_, -, hs⟩ := Except.bind_eq_ok_iff.1 hs
      obtain ⟨_, -, hs⟩ := Except.bind_eq_ok_iff.1 hs
      obtain ⟨_, hs, -⟩ := Except.bind_eq_ok_iff.1 hs
      obtain ⟨s₁, hs, -⟩ := Except.bind_eq_ok_iff.1 hs
      exact ⟨s₁, hs⟩
  | whileLoop c y =>
    refine match k, hpart with
      | 0, h => (hexpr (Option.some.inj h)).elim
      | 1, h => ⟨y, Option.some.inj h, nofun, fun s s' hs => ?_⟩
    obtain ⟨_, -, hs⟩ := Except.bind_eq_ok_iff.1 hs
    obtain ⟨s₁, hs, -⟩ := Except.bind_eq_ok_iff.1 hs
    exact ⟨s₁, hs⟩
  | expr | var | ret | discard | empty =>
    -- all parts of the other statements are expressions
    obtain ⟨⟨slot, hslot, haccepts⟩, -⟩ := hfits.taken hpart
    cases hslot <;> exact absurd (hcat.symm.trans (of_decide_eq_true haccepts)) nofun

/-- What a compound statement says covers what the statement inside it says. -/
theorem covers_inner {y : Stmt} (hx : x.DeclaresNothing) (hy : y.DeclaresNothing)
    (h : ∀ s s', x.check s = .ok s' → ∃ s₁, y.check s.enter = .ok s₁) :
    Covers x.outline.scopeTokens y.outline.scopeTokens := by
  intro s s' hs
  rw [readAll_outline] at hs ⊢
  obtain ⟨s₁, hinner⟩ := h s s' hs
  rw [check_eq_self hx hs, check_of_enter hy hinner]

end Stmt

/-- The declaration of a function covers nothing at all. -/
theorem Decl.covers_nil (returnType name : String) (params : List Param) (body : List Stmt) :
    Covers (Decl.function returnType name params body).outline.scopeTokens [] := by
  intro s s' h
  rw [Decl.scopeTokens_outline, Decl.readAll_scopeTokens] at h
  obtain ⟨_, -, h⟩ := Except.bind_eq_ok_iff.1 h
  obtain ⟨_, -, ⟨⟩⟩ := Except.bind_eq_ok_iff.1 h
  rfl

namespace Program

variable (p : Program)

/-- The entry points of a program are read off its headers. -/
theorem hasEntryPoint_iff_filter :
    p.HasEntryPoint ↔ p.headers.filter (·.isFunction entryPoint) ≠ [] := by
  have hisFunction (d : Decl) : d.header.isFunction entryPoint = d.isFunction entryPoint := by
    cases d <;> rfl
  rw [p.hasEntryPoint_iff, List.any_eq_true, ne_eq, List.filter_eq_nil_iff]
  simp only [headers, List.forall_mem_map, hisFunction]
  push Not
  rfl

/-- A program is valid if it has an entry point and its scopes can be read. -/
theorem check_eq_ok_iff :
    p.check = .ok () ↔
      p.HasEntryPoint ∧ ∃ s, Scopes.top.readAll p.outline.insideTokens = .ok s := by
  have htokens : p.outline.insideTokens = p.scopeTokens := p.scopeTokens_outline
  rw [htokens, p.readAll_scopeTokens]
  by_cases hentry : p.HasEntryPoint
  · have hcheck : p.check = p.checkScopes.bind fun _ => .ok () := by
      rw [check, p.hasEntryPoint_iff.1 hentry]
      rfl
    rw [hcheck]
    constructor
    · intro h
      obtain ⟨s, hs, -⟩ := Except.bind_eq_ok_iff.1 h
      exact ⟨hentry, s, hs⟩
    · rintro ⟨-, s, hs⟩
      rw [hs]
      rfl
  · have hcheck : p.check ≠ .ok () := fun h => hentry (p.check_eq.1.1 h).1
    exact ⟨fun h => absurd h hcheck, fun h => absurd h.1 hentry⟩

end Program

/-! ## Changes -/

/-- A block gives way to the statement inside it only if it is the only one. -/
theorem FinderConfig.length_of_mem_find {config : FinderConfig} {a : Arena} {o : Opportunity}
    {parent target inner : NodeId} (ho : o ∈ config.find a)
    (hc : o.change = .collapseStatement parent target inner)
    (hblock : a.data? target = some .block) : (a.childrenOf target).length = 1 := by
  obtain ⟨id, -, c, hmem, rfl⟩ := mem_find_iff.1 ho
  obtain rfl : c = _ := hc
  obtain ⟨node, above, hn, -, hfound⟩ := exists_foundAt hmem
  cases hfound with | inner _ _ _ _ hinner =>
  rw [data?_of_get? hn, Option.some_inj] at hblock
  rw [childrenOf_of_get? hn]
  simp only [innerStatementsOf, hblock] at hinner
  split at hinner
  · next hone => exact hone
  · cases hinner

namespace Change

/-- The change removes no variable and no global, and it does not put a variable in the place of a
statement around it. -/
def SparesNames (a : Arena) : Change → Prop
  | .simplifyExpr .. => True
  | .removeStatement _ x | .collapseStatement _ _ x => ∀ ty name, a.data? x ≠ some (.var ty name)
  | .removeDeclaration _ x =>
    ∃ returnType name params, a.data? x = some (.function returnType name params)

section
variable {config : FinderConfig} {p q : Program} {c : Change} {path : List Nat} {i : Nat}
  {above old : Outline} {stays : List Outline}

/-- The parent of the target of a local edit has the form of the node above the part. -/
theorem LocalEdit.at_parent (e : c.LocalEdit p q path i above old stays)
    (hchild : (ofProgram p).hasChild c.parent c.target = true) :
    above.At (ofProgram p) c.parent := by
  have h := wellFormed_ofProgram p
  obtain ⟨x, hx, hmem⟩ := exists_nodeAt_of_append e.target_eq
  obtain ⟨hlive, hmem'⟩ := h.hasChild_iff.1 hchild
  rw [h.live_unique hlive (below_of_nodeAt hx) hmem' (List.mem_of_getElem? hmem)]
  exact (outline_at_ofProgram p).of_part e.above_eq hx

/-- What a found change takes away covers what it leaves, if it spares the names. -/
theorem LocalEdit.covers {o : Opportunity} (ho : o ∈ config.find (ofProgram p))
    (hspares : o.change.SparesNames (ofProgram p))
    (e : o.change.LocalEdit p q path i above old stays) :
    Covers p.outline.insideTokens q.outline.insideTokens := by
  obtain ⟨hsuits, hholds⟩ := FinderConfig.found_of_mem_find (wellFormed_ofProgram p) ho
  have hold := e.part_eq
  have htarget := e.at_target
  have hparent := e.at_parent (hasChild_of_holds hholds)
  obtain ⟨⟨slot, hslot, haccepts⟩, hfits⟩ := (p.fits_outline.part e.above_eq).taken hold
  -- the places of expressions are not those of bodies
  have hplace (hcat : old.data.category = .expression) : above.data.slotKind? i ≠ some .body := by
    rintro hbody
    cases hslot.symm.trans hbody
    rw [show old.data = .block from of_decide_eq_true haccepts] at hcat
    cases hcat
  have hleaves := e.leaves
  have hsplice := Outline.covers_splice stays e.above_eq hold
  rw [← e.outline_eq] at hsplice
  generalize hc : o.change = c at *
  cases hleaves with
  | operand hcat _ hpart _ =>
    obtain ⟨x, rfl⟩ := hfits.exists_expr hcat
    exact hsplice (.inl rfl) (Outline.covers_singleton (hplace hcat)
      (x.covers_of_sublist (Outline.scopeTokens_sublist hcat hpart)))
  | @literal _ _ value hcat _ _ =>
    obtain ⟨x, rfl⟩ := hfits.exists_expr hcat
    have hnone : (Outline.node value.toPayload []).scopeTokens = [] := by cases value <;> rfl
    refine hsplice (.inl rfl) (Outline.covers_singleton (hplace hcat) (x.covers_of_sublist ?_))
    rw [hnone]
    exact List.nil_sublist _
  | @inner parent target inner k part hcat hpartCat hpart hnode =>
    obtain ⟨data, hdata, hslots⟩ := hsuits.2.2
    cases hparent.data?.symm.trans hdata
    obtain ⟨x, rfl⟩ := hfits.exists_stmt hcat
    have hinner : part.At (ofProgram p) inner := by
      refine (outline_at_ofProgram p).of_part ?_ hnode
      rw [Outline.part?_append e.old_eq, Outline.part?_singleton, hpart]
    have hone (hblock : x.outline.data = .block) : x.outline.parts.length = 1 := by
      rw [htarget.length_parts]
      exact FinderConfig.length_of_mem_find ho hc (hblock ▸ htarget.data?)
    obtain ⟨y, rfl, hx, hscope⟩ := Stmt.exists_inner hpart hpartCat hone
    have hy : y.DeclaresNothing := Stmt.declaresNothing_of_data fun ty name h =>
      hspares ty name (h ▸ hinner.data?)
    exact hsplice (.inl rfl) (Outline.covers_singleton (hslots i) (Stmt.covers_inner hx hy hscope))
  | statement hcat habove =>
    obtain ⟨x, rfl⟩ := hfits.exists_stmt hcat
    refine hsplice (.inr (habove ▸ fun _ _ _ => rfl)) ?_
    rw [habove]
    exact Stmt.covers_nil (Stmt.declaresNothing_of_data fun ty name h =>
      hspares ty name (h ▸ htarget.data?))
  | declaration hcat habove =>
    obtain ⟨returnType, name, params, hfunction⟩ := hspares
    obtain ⟨d, rfl⟩ := hfits.exists_decl hcat
    refine hsplice (.inr (habove ▸ fun _ _ _ => rfl)) ?_
    rw [habove]
    cases d with
    | global => cases htarget.data?.symm.trans hfunction
    | function returnType name params body => exact Decl.covers_nil returnType name params body

/-- What is found in a valid program leads to a valid program, if it takes away no declaration of a
variable or of a global, and puts no declaration in the place of a statement around it: an
expression is simplified, a statement other than a declaration is removed or put in the place of
the statement around it, or a function is removed. -/
theorem check_of_spares (p : Program) (hp : p.check = .ok ()) (o : Opportunity)
    (ho : o ∈ FinderConfig.default.find (ofProgram p))
    (hspares : o.change.SparesNames (ofProgram p)) :
    ∃ edit after q, o.change.apply (ofProgram p) = (.ok edit, after) ∧ after.toProgram = .ok q ∧
      q.check = .ok () := by
  obtain ⟨edit, after, q, path, i, above, old, stays, happly, -, hq, -, e⟩ := exists_localEdit ho
  obtain ⟨hentry, s, hs⟩ := p.check_eq_ok_iff.1 hp
  refine ⟨edit, after, q, happly, hq, q.check_eq_ok_iff.2 ⟨?_, s, e.covers ho hspares _ _ hs⟩⟩
  have hheaders := (e.headers (offered_of_mem_find ho)).2
  rw [Program.hasEntryPoint_iff_filter] at hentry ⊢
  exact hheaders ▸ hentry

/-- In `void main() { int x; if (x) { x; } }`, the branch may take the place of the `if`. -/
theorem check_of_spares_branch :
    let p : Program := ⟨[.function "void" "main" []
      [.var "int" "x" none, .ifElse (.ident "x") (.block [.expr (.ident "x")]) none]]⟩
    let o : Opportunity := ⟨.collapseStatement 2 4 6, 3⟩
    p.check = .ok () ∧ o ∈ FinderConfig.default.find (ofProgram p) ∧
    o.change.SparesNames (ofProgram p) ∧
    ∃ edit after q, o.change.apply (ofProgram p) = (.ok edit, after) ∧ after.toProgram = .ok q ∧
      q.check = .ok () := by
  intro p o
  have hp : p.check = .ok () := by rfl
  have ho : o ∈ FinderConfig.default.find (ofProgram p) := by
    rw [FinderConfig.find, List.mem_mergeSort]
    decide
  have hspares : o.change.SparesNames (ofProgram p) := by
    have hdata : (ofProgram p).data? 6 = some .block := by decide
    intro ty name h
    rw [hdata] at h
    cases h
  exact ⟨hp, ho, hspares, check_of_spares p hp o ho hspares⟩

end

end Change

end ShaderShrink

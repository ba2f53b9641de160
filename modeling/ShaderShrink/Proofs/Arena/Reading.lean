import ShaderShrink.Arena.Raise
import ShaderShrink.Proofs.Arena.WellFormed
import ShaderShrink.Proofs.Program.Fits

/-!
# What an arena shows

`Outline.At` says that a node and those below it have the form of an outline. A node has at most one
outline, and in a well-formed arena it has one, which fits (`WellFormed.exists_at`). Walking and
reading follow it: a walk visits as many nodes as the outline has (`Outline.At.length_walk`), and
reading gives the program whose outline the root has (`Arena.toProgram_of_at`), so a well-formed
arena can always be read (`WellFormed.exists_toProgram`).
-/

namespace ShaderShrink

mutual

/-- The node and those below it have the form of the outline. -/
def Outline.At (a : Arena) : Outline → NodeId → Prop
  | .node data parts, id => a.data? id = some data ∧ Outline.AllAt a parts (a.childrenOf id)

/-- Some nodes and those below them have the forms of some outlines. -/
def Outline.AllAt (a : Arena) : List Outline → List NodeId → Prop
  | [], ids => ids = []
  | t :: rest, ids => ∃ id more, ids = id :: more ∧ t.At a id ∧ Outline.AllAt a rest more

end

namespace Outline

section
variable {a : Arena} {t : Outline} {ts : List Outline} {id : Nat} {ids : List NodeId}

/-- Outlines are read at some numbers if each one is read at its number. -/
theorem allAt_iff : AllAt a ts ids ↔ List.Forall₂ (fun t id => t.At a id) ts ids := by
  induction ts generalizing ids with
  | nil => simp [AllAt]
  | cons t rest ih => simp only [AllAt, ih, List.forall₂_cons_left_iff]; grind

/-- There are as many numbers as outlines that are read at them. -/
theorem AllAt.length_eq (h : AllAt a ts ids) : ts.length = ids.length :=
  (allAt_iff.1 h).length_eq

/-- An outline at a place is read at the number at this place. -/
theorem AllAt.exists_getElem? {i : Nat} (h : AllAt a ts ids) (ht : ts[i]? = some t) :
    ∃ c, ids[i]? = some c ∧ t.At a c := by
  obtain ⟨hi, rfl⟩ := List.getElem?_eq_some_iff.1 ht
  have hi' : i < ids.length := h.length_eq ▸ hi
  exact ⟨ids[i], List.getElem?_eq_getElem hi', (allAt_iff.1 h).get hi hi'⟩

/-- The payload of a node is that of the outline that is read there. -/
theorem At.data? (h : t.At a id) : a.data? id = some t.data := by
  obtain ⟨data, parts⟩ := t
  exact h.1

/-- There is a node where an outline is read. -/
theorem At.lt_size (h : t.At a id) : id < a.size := Arena.lt_size_of_data? h.data?

mutual

/-- Outlines depend on payloads and children alone: an arena that has the same under other numbers
has the same outlines there. -/
theorem At.map {b : Arena} {f : NodeId → NodeId}
    (hd : ∀ x data, a.data? x = some data → b.data? (f x) = some data)
    (hc : ∀ x, b.childrenOf (f x) = (a.childrenOf x).map f) :
    ∀ {t : Outline} {id : NodeId}, t.At a id → t.At b (f id)
  | .node _ _, id, h => ⟨hd id _ h.1, hc id ▸ AllAt.map hd hc h.2⟩

/-- Outlines that are read at some numbers are read at the new numbers of these nodes. -/
theorem AllAt.map {b : Arena} {f : NodeId → NodeId}
    (hd : ∀ x data, a.data? x = some data → b.data? (f x) = some data)
    (hc : ∀ x, b.childrenOf (f x) = (a.childrenOf x).map f) :
    ∀ {ts : List Outline} {ids : List NodeId}, AllAt a ts ids → AllAt b ts (ids.map f)
  | [], _, h => by rw [h]; rfl
  | _ :: _, _, ⟨id, more, he, ht, hrest⟩ =>
    ⟨f id, more.map f, by rw [he]; rfl, At.map hd hc ht, AllAt.map hd hc hrest⟩

end

mutual

/-- A walk with enough levels visits as many nodes as the outline has. -/
theorem At.length_walk : ∀ {t : Outline} {id : NodeId} {n : Nat}, t.At a id → t.height ≤ n →
    (a.walk n id).length = t.size
  | .node _ parts, id, 0, _, hn => by simp [height] at hn
  | .node _ parts, id, n + 1, h, hn => by
    rw [height] at hn
    rw [Arena.walk, List.length_cons, size, AllAt.length_walk h.2 (by omega)]

/-- A walk from the nodes of some outlines finds as many nodes as the outlines have. -/
theorem AllAt.length_walk : ∀ {ts : List Outline} {ids : List NodeId} {n : Nat}, AllAt a ts ids →
    heightAll ts ≤ n → (ids.flatMap (a.walk n)).length = sizeAll ts
  | [], _, _, h, _ => by rw [h]; rfl
  | t :: rest, _, n, ⟨id, more, he, ht, hrest⟩, hn => by
    rw [heightAll] at hn
    rw [he, List.flatMap_cons, List.length_append, sizeAll, At.length_walk ht (by omega),
      AllAt.length_walk hrest (by omega)]

end

mutual

/-- Numbers grow from level to level, so the outline of a node is no higher than there are numbers
from that of the node on. -/
theorem At.height_le (hw : a.WellFormed) : ∀ {t : Outline} {id : Nat}, t.At a id →
    id + t.height ≤ a.size
  | .node _ parts, id, h => by
    have hid := h.lt_size
    have := AllAt.height_le hw h.2 (fun c hc => hw.lt_child hc)
    rw [height]
    omega

/-- Outlines below a node fit between it and the end of the arena. -/
theorem AllAt.height_le (hw : a.WellFormed) : ∀ {ts : List Outline} {ids : List Nat} {id : Nat},
    AllAt a ts ids → (∀ c ∈ ids, id < c) → heightAll ts = 0 ∨ id + 1 + heightAll ts ≤ a.size
  | [], _, _, _, _ => .inl rfl
  | t :: rest, _, id, ⟨c, more, he, ht, hrest⟩, hlt => by
    subst he
    have h₁ : c + t.height ≤ a.size := At.height_le hw ht
    have h₂ := hlt c List.mem_cons_self
    have h₃ := AllAt.height_le hw hrest fun d hd => hlt d (List.mem_cons_of_mem _ hd)
    rw [heightAll]
    grind

end

end

end Outline

namespace Arena

section
variable {a : Arena} {id c : Nat} {i : Nat}

/-- In a well-formed arena, the outlines of the children of a node make one of the node. -/
theorem WellFormed.exists_parts {ids : List NodeId}
    (h : ∀ c ∈ ids, ∃ t : Outline, t.At a c ∧ t.Fits) :
    ∃ ts, Outline.AllAt a ts ids ∧ ∀ t ∈ ts, t.Fits := by
  induction ids with
  | nil => exact ⟨[], rfl, nofun⟩
  | cons c rest ih =>
    obtain ⟨t, ht, hf⟩ := h c List.mem_cons_self
    obtain ⟨ts, hts, hfs⟩ := ih fun d hd => h d (List.mem_cons_of_mem _ hd)
    exact ⟨t :: ts, ⟨c, rest, rfl, ht, hts⟩, List.forall_mem_cons.2 ⟨hf, hfs⟩⟩

/-- In a well-formed arena every node has an outline that fits. -/
theorem WellFormed.exists_at (h : a.WellFormed) (hid : id < a.size) :
    ∃ t : Outline, t.At a id ∧ t.Fits := by
  induction hn : a.size - id using Nat.strong_induction_on generalizing id with
  | _ n ih =>
    obtain ⟨data, hd⟩ := exists_data? hid
    have hkids : ∀ c ∈ a.childrenOf id, ∃ t : Outline, t.At a c ∧ t.Fits := by
      intro c hc
      have h₁ : id < c := h.lt_child hc
      have h₂ : c < a.size := h.child_lt hc
      exact ih (a.size - c) (by omega) h₂ rfl
    obtain ⟨ts, hts, hfs⟩ := exists_parts hkids
    refine ⟨.node data ts, ⟨hd, hts⟩, Outline.fits_iff.2 ⟨?_, fun i t ht => ⟨?_, ?_⟩⟩⟩
    · rw [hts.length_eq]
      exact h.admits hd
    · obtain ⟨c, hc, htc⟩ := hts.exists_getElem? ht
      obtain ⟨data', slot, part, hd', hs, hp, ha⟩ := h.slots hc
      rw [hd] at hd'
      cases hd'
      rw [htc.data?] at hp
      cases hp
      exact ⟨slot, hs, ha⟩
    · exact hfs t (List.mem_of_getElem? ht)

/-! ## Reading -/

/-- A child is found at its place in the list. -/
theorem nthChild_eq_ok_iff : a.nthChild id i = .ok c ↔ (a.childrenOf id)[i]? = some c := by
  unfold nthChild
  split <;> simp_all

/-- A node with a payload is found. -/
theorem find_of_data? {data : Payload} (h : a.data? id = some data) :
    ∃ node, a.find id = .ok node ∧ node.data = data ∧ node.children = a.childrenOf id := by
  obtain ⟨node, hn, rfl⟩ := Option.map_eq_some_iff.1 h
  exact ⟨node, find_eq_ok_iff.2 hn, rfl, (childrenOf_of_get? hn).symm⟩

/-- The outline of a child, which has fewer levels. -/
theorem At.part {data : Payload} {parts : List Outline} {t : Outline} {n : Nat}
    (h : (Outline.node data parts).At a id) (hn : (Outline.node data parts).height ≤ n + 1)
    (ht : parts[i]? = some t) : ∃ c, a.nthChild id i = .ok c ∧ t.At a c ∧ t.height ≤ n := by
  obtain ⟨c, hc, htc⟩ := h.2.exists_getElem? ht
  have hle := Outline.height_le_heightAll (List.mem_of_getElem? ht)
  rw [Outline.height] at hn
  exact ⟨c, nthChild_eq_ok_iff.2 hc, htc, by omega⟩

mutual

/-- Reading a node that has the outline of an expression gives the expression. -/
theorem exprWithin_of_at : ∀ {e : Expr} {n : Nat} {id : Nat}, e.outline.At a id →
    e.outline.height ≤ n → a.exprWithin n id = .ok e
  | e, 0, _, _, hn => absurd hn (Nat.not_le.2 e.outline.height_pos)
  | .int _, n + 1, id, h, _ | .float _, n + 1, id, h, _ | .bool _, n + 1, id, h, _
  | .ident _, n + 1, id, h, _ => by
    obtain ⟨node, hf, hd, -⟩ := find_of_data? h.1
    rw [exprWithin, hf, Except.ok_bind]
    simp only [hd]
    rfl
  | .unary op e, n + 1, id, h, hn => by
    obtain ⟨node, hf, hd, -⟩ := find_of_data? h.1
    obtain ⟨c, hc, he, hl⟩ := At.part h hn (i := 0) rfl
    rw [exprWithin, hf, Except.ok_bind]
    simp only [hd, hc, exprWithin_of_at he hl, Except.ok_bind]
    rfl
  | .paren e, n + 1, id, h, hn => by
    obtain ⟨node, hf, hd, -⟩ := find_of_data? h.1
    obtain ⟨c, hc, he, hl⟩ := At.part h hn (i := 0) rfl
    rw [exprWithin, hf, Except.ok_bind]
    simp only [hd, hc, exprWithin_of_at he hl, Except.ok_bind]
    rfl
  | .binary op l r, n + 1, id, h, hn => by
    obtain ⟨node, hf, hd, -⟩ := find_of_data? h.1
    obtain ⟨c, hc, he, hl⟩ := At.part h hn (i := 0) rfl
    obtain ⟨c', hc', he', hl'⟩ := At.part h hn (i := 1) rfl
    rw [exprWithin, hf, Except.ok_bind]
    simp only [hd, hc, hc', exprWithin_of_at he hl, exprWithin_of_at he' hl',
      Except.ok_bind]
    rfl
  | .ternary c t f, n + 1, id, h, hn => by
    obtain ⟨node, hf, hd, -⟩ := find_of_data? h.1
    obtain ⟨x, hx, he, hl⟩ := At.part h hn (i := 0) rfl
    obtain ⟨x', hx', he', hl'⟩ := At.part h hn (i := 1) rfl
    obtain ⟨x'', hx'', he'', hl''⟩ := At.part h hn (i := 2) rfl
    rw [exprWithin, hf, Except.ok_bind]
    simp only [hd, hx, hx', hx'', exprWithin_of_at he hl, exprWithin_of_at he' hl',
      exprWithin_of_at he'' hl'', Except.ok_bind]
    rfl
  | .call callee args, n + 1, id, h, hn => by
    obtain ⟨node, hf, hd, hk⟩ := find_of_data? h.1
    have hall := exprsWithin_of_allAt h.2 (Nat.le_of_succ_le_succ hn)
    rw [exprWithin, hf, Except.ok_bind]
    simp only [hd, hk, Except.mapM_eq_ok hall, Except.ok_bind]
    rfl

/-- Expressions are read where their outlines are. -/
theorem exprsWithin_of_allAt : ∀ {es : List Expr} {n : Nat} {ids : List NodeId},
    Outline.AllAt a (Expr.outlineAll es) ids → Outline.heightAll (Expr.outlineAll es) ≤ n →
    List.Forall₂ (fun id e => a.exprWithin n id = .ok e) ids es
  | [], _, _, h, _ => by rw [h]; exact .nil
  | e :: rest, n, _, ⟨id, more, he, ht, hrest⟩, hn => by
    subst he
    obtain ⟨h₁, h₂⟩ := Nat.max_le.1 hn
    exact .cons (exprWithin_of_at ht h₁) (exprsWithin_of_allAt hrest h₂)

end

/-- A node that has the outline of an expression is read as that expression. -/
theorem toExpr_of_at (h : a.WellFormed) {e : Expr} (he : e.outline.At a id) :
    a.toExpr id = .ok e :=
  exprWithin_of_at he (by have := he.height_le h; omega)

/-- A node whose only children may be an expression is read as it has one or not. -/
theorem firstExpr_of_at (h : a.WellFormed) {e : Option Expr}
    (he : Outline.AllAt a (Expr.outlineOption e) (a.childrenOf id)) : a.firstExpr id = .ok e := by
  cases e with
  | none =>
    have hk : a.childrenOf id = [] := he
    rw [firstExpr, hk]
  | some e =>
    obtain ⟨c, more, hk, he, -⟩ := he
    rw [firstExpr, hk]
    simp only [toExpr_of_at h he]
    rfl

mutual

/-- Reading a node that has the outline of a statement gives the statement. -/
theorem stmtWithin_of_at (hw : a.WellFormed) : ∀ {s : Stmt} {n : Nat} {id : Nat},
    s.outline.At a id → s.outline.height ≤ n → a.stmtWithin n id = .ok s
  | s, 0, _, _, hn => absurd hn (Nat.not_le.2 s.outline.height_pos)
  | .block body, n + 1, id, h, hn => by
    obtain ⟨node, hf, hd, hk⟩ := find_of_data? h.1
    have hall := stmtsWithin_of_allAt hw h.2 (Nat.le_of_succ_le_succ hn)
    rw [stmtWithin, hf, Except.ok_bind]
    simp only [hd, hk, Except.mapM_eq_ok hall, Except.ok_bind]
    rfl
  | .expr e, n + 1, id, h, hn => by
    obtain ⟨node, hf, hd, -⟩ := find_of_data? h.1
    obtain ⟨c, hc, he, -⟩ := At.part h hn (i := 0) rfl
    rw [stmtWithin, hf, Except.ok_bind]
    simp only [hd, hc, toExpr_of_at hw he, Except.ok_bind]
    rfl
  | .var ty name init, n + 1, id, h, _ => by
    obtain ⟨node, hf, hd, -⟩ := find_of_data? h.1
    rw [stmtWithin, hf, Except.ok_bind]
    simp only [hd, firstExpr_of_at hw h.2, Except.ok_bind]
    rfl
  | .ret value, n + 1, id, h, _ => by
    obtain ⟨node, hf, hd, -⟩ := find_of_data? h.1
    rw [stmtWithin, hf, Except.ok_bind]
    simp only [hd, firstExpr_of_at hw h.2, Except.ok_bind]
    rfl
  | .ifElse c t none, n + 1, id, h, hn => by
    obtain ⟨node, hf, hd, hk⟩ := find_of_data? h.1
    obtain ⟨x, hx, he, -⟩ := At.part h hn (i := 0) rfl
    obtain ⟨y, hy, ht, hl⟩ := At.part h hn (i := 1) rfl
    have hnone : node.children[2]? = none := by
      rw [hk, List.getElem?_eq_none_iff, ← h.2.length_eq]
      exact Nat.le_refl 2
    rw [stmtWithin, hf, Except.ok_bind]
    simp only [hd, hx, hy, toExpr_of_at hw he, stmtWithin_of_at hw ht hl, hnone,
      Except.ok_bind]
    rfl
  | .ifElse c t (some f), n + 1, id, h, hn => by
    obtain ⟨node, hf, hd, hk⟩ := find_of_data? h.1
    obtain ⟨x, hx, he, -⟩ := At.part h hn (i := 0) rfl
    obtain ⟨y, hy, ht, hl⟩ := At.part h hn (i := 1) rfl
    obtain ⟨z, hz, hf', hl'⟩ := At.part h hn (i := 2) rfl
    rw [nthChild_eq_ok_iff, ← hk] at hz
    rw [stmtWithin, hf, Except.ok_bind]
    simp only [hd, hx, hy, hz, toExpr_of_at hw he, stmtWithin_of_at hw ht hl,
      stmtWithin_of_at hw hf' hl', Except.ok_bind]
    rfl
  | .whileLoop c b, n + 1, id, h, hn => by
    obtain ⟨node, hf, hd, -⟩ := find_of_data? h.1
    obtain ⟨x, hx, he, -⟩ := At.part h hn (i := 0) rfl
    obtain ⟨y, hy, hb, hl⟩ := At.part h hn (i := 1) rfl
    rw [stmtWithin, hf, Except.ok_bind]
    simp only [hd, hx, hy, toExpr_of_at hw he, stmtWithin_of_at hw hb hl,
      Except.ok_bind]
    rfl
  | .discard, n + 1, id, h, _ | .empty, n + 1, id, h, _ => by
    obtain ⟨node, hf, hd, -⟩ := find_of_data? h.1
    rw [stmtWithin, hf, Except.ok_bind]
    simp only [hd]
    rfl

/-- Statements are read where their outlines are. -/
theorem stmtsWithin_of_allAt (hw : a.WellFormed) : ∀ {ss : List Stmt} {n : Nat}
    {ids : List NodeId}, Outline.AllAt a (Stmt.outlineAll ss) ids →
    Outline.heightAll (Stmt.outlineAll ss) ≤ n →
    List.Forall₂ (fun id s => a.stmtWithin n id = .ok s) ids ss
  | [], _, _, h, _ => by rw [h]; exact .nil
  | s :: rest, n, _, ⟨id, more, he, ht, hrest⟩, hn => by
    subst he
    obtain ⟨h₁, h₂⟩ := Nat.max_le.1 hn
    exact .cons (stmtWithin_of_at hw ht h₁) (stmtsWithin_of_allAt hw hrest h₂)

end

/-- A statement is read where its outline is. -/
theorem toStmt_of_at (h : a.WellFormed) {s : Stmt} (hs : s.outline.At a id) :
    a.toStmt id = .ok s :=
  stmtWithin_of_at h hs (by have := hs.height_le h; omega)

/-- Reading a node that has the outline of a declaration gives the declaration. -/
theorem toDecl_of_at (h : a.WellFormed) {d : Decl} (hd : d.outline.At a id) :
    a.toDecl id = .ok d := by
  cases d with
  | global ty name init =>
    obtain ⟨node, hf, hd', -⟩ := find_of_data? hd.1
    rw [toDecl, hf, Except.ok_bind]
    simp only [hd', firstExpr_of_at h hd.2, Except.ok_bind]
    rfl
  | function returnType name params body =>
    obtain ⟨node, hf, hd', -⟩ := find_of_data? hd.1
    obtain ⟨c, hc, hb⟩ := hd.2.exists_getElem? (i := 0) rfl
    have hbody : (Stmt.block body).outline.At a c := hb
    rw [toDecl, hf, Except.ok_bind]
    simp only [hd', nthChild_eq_ok_iff.2 hc, toStmt_of_at h hbody, Except.ok_bind]
    rfl

/-- Reading an arena whose root has the outline of a program gives the program. -/
theorem toProgram_of_at (h : a.WellFormed) {p : Program} (hp : p.outline.At a root) :
    a.toProgram = .ok p := by
  have hall : List.Forall₂ (fun id d => a.toDecl id = .ok d) (a.childrenOf root)
      p.declarations := by
    have := List.forall₂_map_left_iff.1 (Outline.allAt_iff.1 hp.2)
    exact (this.imp fun d id hd => toDecl_of_at h hd).flip
  rw [toProgram, Except.mapM_eq_ok hall]
  rfl

/-- A well-formed arena can be read, and its root has the outline of what is read. -/
theorem WellFormed.exists_toProgram (h : a.WellFormed) :
    ∃ p : Program, a.toProgram = .ok p ∧ p.outline.At a root := by
  obtain ⟨t, ht, hf⟩ := h.exists_at h.root_lt
  have hd : t.data = .unit := by
    have := ht.data?
    rw [h.root_data] at this
    injection this with this
    exact this.symm
  obtain ⟨p, rfl⟩ := hf.exists_program hd
  exact ⟨p, toProgram_of_at h ht, ht⟩

/-- There are as many live nodes as the program has. -/
theorem WellFormed.liveCount_eq (h : a.WellFormed) {p : Program} (hp : p.outline.At a root) :
    a.liveCount = p.size := by
  have hle : 0 + p.outline.height ≤ a.size := hp.height_le h
  rw [liveCount, preorder, hp.length_walk (by omega), p.size_outline]

end

end Arena

end ShaderShrink

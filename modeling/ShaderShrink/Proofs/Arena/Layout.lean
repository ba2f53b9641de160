import ShaderShrink.Arena.Layout
import ShaderShrink.Proofs.Arena.Reading

/-!
# The arena of a program is well formed and shows the program

`Outline.layout` lays an outline out in preorder, and `Program.layout_eq` says that programs are
laid out as their outlines are. `Outline.LaidAt` is what an arena looks like at and below a node
where an outline was laid out; it makes the nodes there as the invariant asks
(`Outline.LaidAt.settled`). So the arena of a program is well formed (`Arena.wellFormed_ofProgram`),
and reading it gives the program (`Arena.toProgram_ofProgram`).
-/

namespace ShaderShrink

namespace Outline

/-- The numbers of some outlines that are laid out from `id` on. -/
def positions (id : Nat) : List Outline → List NodeId
  | [] => []
  | t :: rest => id :: positions (id + t.size) rest

mutual

/-- The nodes of an outline that is numbered `id`. -/
def layout (parent : Option NodeId) (id : Nat) : Outline → List Node
  | .node data parts => ⟨data, positions (id + 1) parts, parent⟩ :: layoutAll id (id + 1) parts

/-- The nodes of some outlines below `parent`, numbered from `id` on. -/
def layoutAll (parent : NodeId) (id : Nat) : List Outline → List Node
  | [] => []
  | t :: rest => t.layout (some parent) id ++ layoutAll parent (id + t.size) rest

end

end Outline

/-! ## Programs are laid out as their outlines are -/

mutual

/-- An expression is laid out as its outline is. -/
theorem Expr.layout_eq : ∀ (e : Expr) (parent id : NodeId),
    e.layout parent id = e.outline.layout (some parent) id
  | .int _, _, _ | .float _, _, _ | .bool _, _, _ | .ident _, _, _ => rfl
  | .unary _ e, _, id | .paren e, _, id => by
    simp [Expr.layout, Expr.outline, Outline.layout, Outline.layoutAll, Outline.positions,
      e.layout_eq id]
  | .binary _ l r, _, id => by
    simp [Expr.layout, Expr.outline, Outline.layout, Outline.layoutAll, Outline.positions,
      l.layout_eq id, r.layout_eq id, Expr.size_outline]
  | .call _ args, _, id => by
    simp [Expr.layout, Expr.outline, Outline.layout, Expr.layoutAll_eq args, Expr.positions_eq args]
  | .ternary c t f, _, id => by
    simp [Expr.layout, Expr.outline, Outline.layout, Outline.layoutAll, Outline.positions,
      c.layout_eq id, t.layout_eq id, f.layout_eq id, Expr.size_outline]

/-- Expressions are laid out as their outlines are. -/
theorem Expr.layoutAll_eq : ∀ (es : List Expr) (parent id : NodeId),
    Expr.layoutAll parent id es = Outline.layoutAll parent id (Expr.outlineAll es)
  | [], _, _ => rfl
  | e :: rest, parent, id => by
    rw [Expr.layoutAll, Expr.outlineAll, Outline.layoutAll, e.layout_eq, e.size_outline,
      Expr.layoutAll_eq rest]

/-- Expressions are numbered as their outlines are. -/
theorem Expr.positions_eq : ∀ (es : List Expr) (id : NodeId),
    Expr.positions id es = Outline.positions id (Expr.outlineAll es)
  | [], _ => rfl
  | e :: rest, id => by
    rw [Expr.positions, Expr.outlineAll, Outline.positions, e.size_outline, Expr.positions_eq rest]

end

/-- An expression that may be absent is laid out as its outline is. -/
theorem Expr.layoutOption_eq (e : Option Expr) (parent id : NodeId) :
    Expr.layoutOption parent id e = Outline.layoutAll parent id (Expr.outlineOption e) := by
  cases e with
  | none => rfl
  | some e => simp [Expr.layoutOption, Expr.outlineOption, Outline.layoutAll, e.layout_eq]

/-- An expression that may be absent is numbered as its outline is. -/
theorem Expr.positionOption_eq (e : Option Expr) (id : NodeId) :
    Expr.positionOption id e = Outline.positions id (Expr.outlineOption e) := by
  cases e <;> rfl

mutual

/-- A statement is laid out as its outline is. -/
theorem Stmt.layout_eq : ∀ (s : Stmt) (parent id : NodeId),
    s.layout parent id = s.outline.layout (some parent) id
  | .block body, _, id => by
    simp [Stmt.layout, Stmt.outline, Outline.layout, Stmt.layoutAll_eq body, Stmt.positions_eq body]
  | .expr e, _, id => by
    simp [Stmt.layout, Stmt.outline, Outline.layout, Outline.layoutAll, Outline.positions,
      e.layout_eq id]
  | .var _ _ init, _, id | .ret init, _, id => by
    simp [Stmt.layout, Stmt.outline, Outline.layout, Expr.layoutOption_eq init,
      Expr.positionOption_eq init]
  | .ifElse c t f, _, id => by
    simp [Stmt.layout, Stmt.outline, Outline.layout, Outline.layoutAll, Outline.positions,
      c.layout_eq id, t.layout_eq id, Stmt.layoutOption_eq f, Stmt.positionOption_eq f,
      Expr.size_outline, Stmt.size_outline]
  | .whileLoop c b, _, id => by
    simp [Stmt.layout, Stmt.outline, Outline.layout, Outline.layoutAll, Outline.positions,
      c.layout_eq id, b.layout_eq id, Expr.size_outline]
  | .discard, _, _ | .empty, _, _ => rfl

/-- Statements are laid out as their outlines are. -/
theorem Stmt.layoutAll_eq : ∀ (ss : List Stmt) (parent id : NodeId),
    Stmt.layoutAll parent id ss = Outline.layoutAll parent id (Stmt.outlineAll ss)
  | [], _, _ => rfl
  | s :: rest, parent, id => by
    rw [Stmt.layoutAll, Stmt.outlineAll, Outline.layoutAll, s.layout_eq, s.size_outline,
      Stmt.layoutAll_eq rest]

/-- A statement that may be absent is laid out as its outline is. -/
theorem Stmt.layoutOption_eq : ∀ (s : Option Stmt) (parent id : NodeId),
    Stmt.layoutOption parent id s = Outline.layoutAll parent id (Stmt.outlineOption s)
  | none, _, _ => rfl
  | some s, parent, id => by
    simp [Stmt.layoutOption, Stmt.outlineOption, Outline.layoutAll, s.layout_eq]

/-- Statements are numbered as their outlines are. -/
theorem Stmt.positions_eq : ∀ (ss : List Stmt) (id : NodeId),
    Stmt.positions id ss = Outline.positions id (Stmt.outlineAll ss)
  | [], _ => rfl
  | s :: rest, id => by
    rw [Stmt.positions, Stmt.outlineAll, Outline.positions, s.size_outline, Stmt.positions_eq rest]

/-- A statement that may be absent is numbered as its outline is. -/
theorem Stmt.positionOption_eq : ∀ (s : Option Stmt) (id : NodeId),
    Stmt.positionOption id s = Outline.positions id (Stmt.outlineOption s)
  | none, _ | some _, _ => rfl

end

/-- A declaration is laid out as its outline is. -/
theorem Decl.layout_eq (d : Decl) (parent id : NodeId) :
    d.layout parent id = d.outline.layout (some parent) id := by
  cases d with
  | global ty name init =>
    simp [Decl.layout, Decl.outline, Outline.layout, Expr.layoutOption_eq, Expr.positionOption_eq]
  | function returnType name params body =>
    simp [Decl.layout, Decl.outline, Outline.layout, Outline.layoutAll, Outline.positions,
      Stmt.layoutAll_eq, Stmt.positions_eq]

/-- Declarations are laid out as their outlines are. -/
theorem Decl.layoutAll_eq (ds : List Decl) (parent id : NodeId) :
    Decl.layoutAll parent id ds = Outline.layoutAll parent id (ds.map Decl.outline) := by
  induction ds generalizing id with
  | nil => rfl
  | cons d rest ih =>
    rw [Decl.layoutAll, List.map_cons, Outline.layoutAll, d.layout_eq, d.size_outline, ih]

/-- Declarations are numbered as their outlines are. -/
theorem Decl.positions_eq (ds : List Decl) (id : NodeId) :
    Decl.positions id ds = Outline.positions id (ds.map Decl.outline) := by
  induction ds generalizing id with
  | nil => rfl
  | cons d rest ih => rw [Decl.positions, List.map_cons, Outline.positions, d.size_outline, ih]

/-- A program is laid out as its outline is, from the root on. -/
theorem Program.layout_eq (p : Program) : p.layout = p.outline.layout none 0 := by
  rw [Program.layout, Program.outline, Outline.layout, Decl.layoutAll_eq, Decl.positions_eq]
  rfl

namespace Outline

/-! ## Where an outline was laid out -/

mutual

/-- The arena has, from `id` on, the nodes of the outline. -/
def LaidAt (a : Arena) (parent : Option NodeId) (id : Nat) : Outline → Prop
  | .node data parts =>
    a.get? id = some ⟨data, positions (id + 1) parts, parent⟩ ∧ AllLaidAt a id (id + 1) parts

/-- The arena has, from `id` on, the nodes of some outlines below `parent`. -/
def AllLaidAt (a : Arena) (parent : NodeId) (id : Nat) : List Outline → Prop
  | [] => True
  | t :: rest => t.LaidAt a (some parent) id ∧ AllLaidAt a parent (id + t.size) rest

end

section
variable {a : Arena} {t : Outline} {ts : List Outline} {id c parent : Nat} {i : Nat}

mutual

/-- An outline is laid out in as many nodes as it has. -/
@[simp] theorem length_layout : ∀ (t : Outline) (parent : Option NodeId) (id : Nat),
    (t.layout parent id).length = t.size
  | .node _ parts, _, id => by
    rw [layout, List.length_cons, length_layoutAll parts, size]

/-- Outlines are laid out in as many nodes as they have together. -/
@[simp] theorem length_layoutAll : ∀ (ts : List Outline) (parent : NodeId) (id : Nat),
    (layoutAll parent id ts).length = sizeAll ts
  | [], _, _ => rfl
  | t :: rest, _, _ => by
    rw [layoutAll, List.length_append, length_layout t, length_layoutAll rest, sizeAll]

end

mutual

/-- The nodes of an outline are where the list of all nodes has them. -/
theorem laidAt_of_layout : ∀ (t : Outline) (parent : Option NodeId) (pre post : List Node),
    a.nodes.toList = pre ++ (t.layout parent pre.length ++ post) → t.LaidAt a parent pre.length
  | .node data parts, parent, pre, post, h => by
    rw [layout, List.cons_append] at h
    refine ⟨?_, ?_⟩
    · rw [Arena.get?, ← Array.getElem?_toList, h, List.getElem?_append_right (Nat.le_refl _),
        Nat.sub_self]
      rfl
    · have hrest := allLaidAt_of_layout parts pre.length
        (pre ++ [⟨data, positions (pre.length + 1) parts, parent⟩]) post (by simpa using h)
      simpa using hrest

/-- The nodes of some outlines are where the list of all nodes has them. -/
theorem allLaidAt_of_layout : ∀ (ts : List Outline) (parent : NodeId) (pre post : List Node),
    a.nodes.toList = pre ++ (layoutAll parent pre.length ts ++ post) →
    AllLaidAt a parent pre.length ts
  | [], _, _, _, _ => trivial
  | t :: rest, parent, pre, post, h => by
    rw [layoutAll, List.append_assoc] at h
    refine ⟨laidAt_of_layout t _ pre _ h, ?_⟩
    have hrest := allLaidAt_of_layout rest parent (pre ++ t.layout (some parent) pre.length) post
      (by simpa using h)
    simpa using hrest

end

/-- Outlines are numbered from the first number on. -/
theorem le_of_mem_positions (h : c ∈ positions id ts) : id ≤ c := by
  induction ts generalizing id with
  | nil => cases h
  | cons t rest ih =>
    rcases List.mem_cons.1 h with rfl | h
    · exact Nat.le_refl _
    · exact Nat.le_trans (Nat.le_add_right ..) (ih h)

/-- An outline has a node. -/
theorem size_pos (t : Outline) : 0 < t.size := by
  cases t
  exact Nat.succ_pos _

/-- Outlines one after another have different numbers. -/
theorem nodup_positions : (positions id ts).Nodup := by
  induction ts generalizing id with
  | nil => exact .nil
  | cons t rest ih =>
    refine List.nodup_cons.2 ⟨?_, ih⟩
    intro h
    have h₁ := le_of_mem_positions h
    have h₂ := t.size_pos
    omega

/-- There are as many numbers as outlines. -/
@[simp] theorem length_positions : (positions id ts).length = ts.length := by
  induction ts generalizing id with
  | nil => rfl
  | cons t rest ih => rw [positions, List.length_cons, ih, List.length_cons]

/-- What is laid out at a position. -/
theorem AllLaidAt.exists_getElem? (h : AllLaidAt a parent id ts)
    (hc : (positions id ts)[i]? = some c) :
    ∃ t, ts[i]? = some t ∧ t.LaidAt a (some parent) c := by
  induction ts generalizing id i with
  | nil => cases hc
  | cons t rest ih =>
    cases i with
    | zero =>
      cases hc
      exact ⟨t, rfl, h.1⟩
    | succ i => exact ih h.2 hc

/-- The top of an outline that was laid out has its payload and its parent. -/
theorem LaidAt.get? (h : t.LaidAt a parent id) :
    ∃ children, a.get? id = some ⟨t.data, children, parent⟩ := by
  obtain ⟨data, parts⟩ := t
  exact ⟨_, h.1⟩

mutual

/-- An outline is found where it was laid out. -/
theorem LaidAt.at : ∀ {t : Outline} {parent : Option NodeId} {id : Nat}, t.LaidAt a parent id →
    t.At a id
  | .node _ _, _, _, h => ⟨Arena.data?_of_get? h.1, by
    rw [Arena.childrenOf_of_get? h.1]
    exact AllLaidAt.allAt h.2⟩

/-- Outlines that were laid out can be read at their numbers. -/
theorem AllLaidAt.allAt : ∀ {ts : List Outline} {parent : NodeId} {id : Nat},
    AllLaidAt a parent id ts → AllAt a ts (positions id ts)
  | [], _, _, _ => rfl
  | _ :: _, _, _, h => ⟨_, _, rfl, h.1.at, AllLaidAt.allAt h.2⟩

end

end

end Outline

namespace Arena

/-- A node is linked to its children and its parent as the invariant asks, and its children are as
its payload asks. -/
structure Settled (a : Arena) (x : Nat) : Prop where
  lt_child {c : Nat} : c ∈ a.childrenOf x → x < c
  child_lt {c : Nat} : c ∈ a.childrenOf x → c < a.size
  nodup : (a.childrenOf x).Nodup
  parent_of_mem {c : Nat} : c ∈ a.childrenOf x → a.parent? c = some x
  mem_of_parent {p : Nat} : a.parent? x = some p → x ∈ a.childrenOf p
  admits {data : Payload} : a.data? x = some data → data.admits (a.childrenOf x).length = true
  slots {c i : Nat} : (a.childrenOf x)[i]? = some c → a.SlotTakes x i c

end Arena

namespace Outline

variable {a : Arena}

mutual

/-- The nodes of an outline that fits are settled where it was laid out, if the node above it knows
it as a child. -/
theorem LaidAt.settled : ∀ {t : Outline} {parent : Option NodeId} {id x : Nat},
    t.LaidAt a parent id → t.Fits → (∀ p, parent = some p → id ∈ a.childrenOf p) →
    id ≤ x → x < id + t.size → a.Settled x
  | .node data parts, parent, id, x, h, hf, hp, hle, hlt => by
    have hkids := Arena.childrenOf_of_get? h.1
    by_cases hx : x = id
    · subst hx
      have hdata := Arena.data?_of_get? h.1
      have hchild {i c : Nat} (hc : (positions (x + 1) parts)[i]? = some c) :
          ∃ t, parts[i]? = some t ∧ a.data? c = some t.data ∧ a.parent? c = some x := by
        obtain ⟨t, ht, hl⟩ := h.2.exists_getElem? hc
        obtain ⟨children, hn⟩ := hl.get?
        exact ⟨t, ht, Arena.data?_of_get? hn, Arena.parent?_of_get? hn⟩
      have hmem {c : Nat} (hc : c ∈ a.childrenOf x) :
          ∃ t : Outline, a.data? c = some t.data ∧ a.parent? c = some x := by
        rw [hkids] at hc
        obtain ⟨i, hi⟩ := List.mem_iff_getElem?.1 hc
        obtain ⟨t, -, hd, hpar⟩ := hchild hi
        exact ⟨t, hd, hpar⟩
      constructor
      · intro c hc
        rw [hkids] at hc
        exact le_of_mem_positions hc
      · intro c hc
        obtain ⟨t, hd, -⟩ := hmem hc
        exact Arena.lt_size_of_data? hd
      · rw [hkids]
        exact nodup_positions
      · intro c hc
        obtain ⟨t, -, hpar⟩ := hmem hc
        exact hpar
      · intro p hpar
        rw [Arena.parent?_of_get? h.1] at hpar
        exact hp p hpar
      · intro data' hd
        rw [hdata] at hd
        cases hd
        rw [hkids, length_positions]
        exact (fits_iff.1 hf).1
      · intro c i hc
        rw [hkids] at hc
        obtain ⟨t, ht, hd, -⟩ := hchild hc
        obtain ⟨⟨slot, hs, ha⟩, -⟩ := (fits_iff.1 hf).2 i t ht
        exact ⟨data, slot, t.data, hdata, hs, hd, ha⟩
    · rw [size] at hlt
      have hlisted : ∀ c ∈ positions (id + 1) parts, c ∈ a.childrenOf id := by
        intro c hc
        rwa [hkids]
      exact AllLaidAt.settled h.2 (allFit_iff.1 hf.2.2) hlisted (by omega) (by omega)

/-- The nodes of outlines that were laid out below a node are as the invariant asks, if the node
lists their tops. -/
theorem AllLaidAt.settled : ∀ {ts : List Outline} {parent id x : Nat},
    AllLaidAt a parent id ts → (∀ t ∈ ts, t.Fits) →
    (∀ c ∈ positions id ts, c ∈ a.childrenOf parent) →
    id ≤ x → x < id + sizeAll ts → a.Settled x
  | [], _, _, _, _, _, _, hle, hlt => absurd hle (Nat.not_le.2 hlt)
  | t :: rest, parent, id, x, h, hf, hp, hle, hlt => by
    rw [sizeAll] at hlt
    by_cases hx : x < id + t.size
    · have hlisted : ∀ p, some parent = some p → id ∈ a.childrenOf p := by
        intro p he
        cases he
        exact hp id List.mem_cons_self
      exact LaidAt.settled h.1 (hf t List.mem_cons_self) hlisted hle hx
    · have hfit : ∀ t ∈ rest, t.Fits := by
        intro t ht
        exact hf t (List.mem_cons_of_mem _ ht)
      have hlisted : ∀ c ∈ positions (id + t.size) rest, c ∈ a.childrenOf parent := by
        intro c hc
        exact hp c (List.mem_cons_of_mem _ hc)
      exact AllLaidAt.settled h.2 hfit hlisted (by omega) (by omega)

end

end Outline

namespace Arena

variable (p : Program)

/-- The arena of a program has its outline from the root on. -/
theorem laidAt_ofProgram : p.outline.LaidAt (ofProgram p) none 0 :=
  Outline.laidAt_of_layout _ _ [] [] (by simp [ofProgram, p.layout_eq])

/-- The arena of a program has as many nodes as the program. -/
theorem size_ofProgram : (ofProgram p).size = p.size := by
  simp [ofProgram, size, p.layout_eq, p.size_outline]

/-- The root of the arena of a program has the outline of the program. -/
theorem outline_at_ofProgram : p.outline.At (ofProgram p) root := (laidAt_ofProgram p).at

/-- All nodes of a program are settled. -/
theorem settled_ofProgram {p : Program} {x : Nat} (hx : x < (ofProgram p).size) :
    (ofProgram p).Settled x := by
  rw [size_ofProgram, ← p.size_outline, ← Nat.zero_add p.outline.size] at hx
  exact (laidAt_ofProgram p).settled p.fits_outline nofun (Nat.zero_le x) hx

/-- The arena of a program is well formed. -/
theorem wellFormed_ofProgram : (ofProgram p).WellFormed := by
  have hroot : (ofProgram p).get? root = _ := (laidAt_ofProgram p).1
  constructor
  · exact data?_of_get? hroot
  · exact parent?_of_get? hroot
  · intro x c hc
    exact (settled_ofProgram (lt_size_of_mem_childrenOf hc)).lt_child hc
  · intro x c hc
    exact (settled_ofProgram (lt_size_of_mem_childrenOf hc)).child_lt hc
  · intro x
    by_cases hx : x < (ofProgram p).size
    · exact (settled_ofProgram hx).nodup
    · rw [childrenOf_of_size_le (Nat.le_of_not_lt hx)]
      exact .nil
  · intro p c hc
    exact (settled_ofProgram (lt_size_of_parent? hc)).mem_of_parent hc
  · intro p c _ hc
    exact (settled_ofProgram (lt_size_of_mem_childrenOf hc)).parent_of_mem hc
  · intro x data hd
    exact (settled_ofProgram (lt_size_of_data? hd)).admits hd
  · intro x c i hc
    exact (settled_ofProgram (lt_size_of_mem_childrenOf (List.mem_of_getElem? hc))).slots hc

/-- Laying a program out and reading it back gives the program. -/
theorem toProgram_ofProgram : (ofProgram p).toProgram = .ok p :=
  toProgram_of_at (wellFormed_ofProgram p) (outline_at_ofProgram p)

/-- A program is known by its outline. -/
theorem outline_injective : Function.Injective Program.outline := by
  intro p q h
  have harena : ofProgram p = ofProgram q := by
    rw [ofProgram, ofProgram, p.layout_eq, q.layout_eq, h]
  have hread := toProgram_ofProgram p
  rw [harena, toProgram_ofProgram] at hread
  exact (Except.ok.inj hread).symm

/-- All nodes in the arena of a program are live. -/
theorem liveCount_ofProgram : (ofProgram p).liveCount = p.size :=
  (wellFormed_ofProgram p).liveCount_eq (outline_at_ofProgram p)

end Arena

end ShaderShrink

import ShaderShrink.Proofs.Arena.Compact

/-!
# Nodes under other numbers

`Arena.Renumbers f a b` says that the live nodes of `a` are in `b` under the numbers that `f` gives
them. What is found by following links from live nodes then differs in the numbers only: walks
(`Renumbers.walk_eq`), distances from the root (`Renumbers.depth_eq`) and sizes
(`Renumbers.sizeBelow_eq`). The bounds of the walks are those of two arenas of different sizes, and
do no harm since the live nodes of both are trees (`Rooted.walk_congr`).

Compacting an arena is such a change of numbers: a node gets its position in a walk
(`CompactedTo.renumbers`).
-/

namespace ShaderShrink

/-- A node whose links go to the same nodes under other numbers. -/
def Node.renumber (f : NodeId → NodeId) (node : Node) : Node :=
  ⟨node.data, node.children.map f, node.parent.map f⟩

@[simp] theorem Node.data_renumber (f : NodeId → NodeId) (node : Node) :
    (node.renumber f).data = node.data := rfl

@[simp] theorem Node.children_renumber (f : NodeId → NodeId) (node : Node) :
    (node.renumber f).children = node.children.map f := rfl

@[simp] theorem Node.parent_renumber (f : NodeId → NodeId) (node : Node) :
    (node.renumber f).parent = node.parent.map f := rfl

namespace Arena

/-- The live nodes of `a` are in `b` under the numbers that `f` gives them. -/
structure Renumbers (f : NodeId → NodeId) (a b : Arena) : Prop where
  root_eq : f root = root
  get?_eq {x : NodeId} : a.Live x → b.get? (f x) = (a.get? x).map (Node.renumber f)

/-! ## Distances and sizes -/

namespace Rooted

variable {a : Arena} {n m : Nat} {x : NodeId}

/-- The depth of a node is its distance from the root. -/
theorem depthWithin_of_belowIn (h : a.Rooted) (hn : a.BelowIn root n x) (hm : n < m) :
    a.depthWithin m x = n := by
  induction hn generalizing m with
  | self =>
    obtain ⟨m, rfl⟩ := Nat.exists_eq_add_of_lt hm
    simp [depthWithin, h.root_parent]
  | @child n p c hp hc ih =>
    cases m with
    | zero => cases hm
    | succ m =>
      rw [depthWithin, h.parent_of_live hp.toBelow hc]
      exact congrArg (· + 1) (ih (Nat.lt_of_succ_lt_succ hm))

/-- Following parent links tells how far a live node is from the root. -/
theorem depth_eq (h : a.Rooted) (hn : a.BelowIn root n x) : a.depth x = n :=
  h.depthWithin_of_belowIn hn (Nat.lt_succ_of_lt (h.depth_lt_size hn))

/-- A live node is as far below the root as its depth says. -/
theorem belowIn_depth (h : a.Rooted) (hx : a.Live x) : a.BelowIn root (a.depth x) x := by
  obtain ⟨n, hn⟩ := below_iff.1 hx
  rwa [h.depth_eq hn]

/-- There are as many nodes below a live node as a walk meets. -/
theorem sizeWithin_eq (h : a.Rooted) (hx : a.Live x) : a.sizeWithin n x = (a.walk n x).length := by
  induction n generalizing x with
  | zero => rfl
  | succ n ih =>
    obtain ⟨node, hn⟩ := lt_size_iff.1 (h.lt_size_of_live hx)
    have hsum (ids : List NodeId) (hids : ids ⊆ a.childrenOf x) :
        ids.foldr (fun child sum => a.sizeWithin n child + sum) 1 =
          (ids.flatMap (a.walk n)).length + 1 := by
      induction ids with
      | nil => rfl
      | cons c rest ihr =>
        obtain ⟨hc, hrest⟩ := List.cons_subset.1 hids
        rw [List.foldr_cons, ihr hrest, ih (hx.child hc), List.flatMap_cons, List.length_append,
          Nat.add_assoc]
    rw [sizeWithin, hn, walk, List.length_cons, childrenOf_of_get? hn]
    exact hsum node.children (childrenOf_of_get? hn ▸ List.Subset.refl _)

end Rooted

/-! ## Renumbering -/

namespace Renumbers

variable {f : NodeId → NodeId} {a b : Arena} {n : Nat} {x : NodeId}

/-- A node keeps its payload under its new number. -/
theorem data?_eq (h : Renumbers f a b) (hx : a.Live x) : b.data? (f x) = a.data? x := by
  rw [data?, h.get?_eq hx, Option.map_map]
  rfl

/-- The children of a node have their new numbers. -/
theorem childrenOf_eq (h : Renumbers f a b) (hx : a.Live x) :
    b.childrenOf (f x) = (a.childrenOf x).map f := by
  rw [childrenOf, childrenOf, h.get?_eq hx]
  cases a.get? x <;> rfl

/-- A node is as far below the root as before. -/
theorem belowIn (h : Renumbers f a b) (hn : a.BelowIn root n x) : b.BelowIn root n (f x) := by
  induction hn with
  | self =>
    rw [h.root_eq]
    exact .self
  | child hp hc ih =>
    refine ih.child ?_
    rw [h.childrenOf_eq hp.toBelow]
    exact List.mem_map_of_mem hc

/-- A live node is live under its new number. -/
theorem live (h : Renumbers f a b) (hx : a.Live x) : b.Live (f x) := by
  obtain ⟨n, hn⟩ := below_iff.1 hx
  exact (h.belowIn hn).toBelow

/-- Walks meet the same nodes. -/
theorem walk_eq (h : Renumbers f a b) (hx : a.Live x) : b.walk n (f x) = (a.walk n x).map f := by
  induction n generalizing x with
  | zero => rfl
  | succ n ih =>
    rw [walk, walk, h.childrenOf_eq hx, List.map_cons, List.flatMap_map, List.map_flatMap]
    exact congrArg _ (List.flatMap_congr fun c hc => ih (hx.child hc))

section
variable (h : Renumbers f a b) (ha : a.Rooted) (hb : b.Rooted)
include h ha hb

/-- A node has the depth that it had. -/
theorem depth_eq (hx : a.Live x) : b.depth (f x) = a.depth x :=
  hb.depth_eq (h.belowIn (ha.belowIn_depth hx))

/-- Walks meet the same nodes, each within the bound of its own arena. -/
theorem walk_size (hx : a.Live x) :
    b.walk (b.size + 1) (f x) = (a.walk (a.size + 1) x).map f := by
  obtain ⟨n, hn⟩ := below_iff.1 hx
  calc b.walk (b.size + 1) (f x)
      = b.walk (a.size + b.size) (f x) := hb.walk_congr (h.belowIn hn) (by omega) (by omega)
    _ = (a.walk (a.size + b.size) x).map f := h.walk_eq hx
    _ = (a.walk (a.size + 1) x).map f :=
      congrArg (List.map f) (ha.walk_congr hn (by omega) (by omega))

/-- The nodes come in the order in which they came. -/
theorem preorder_eq : b.preorder = a.preorder.map f := by
  have hwalk := h.walk_size ha hb .self
  rwa [h.root_eq] at hwalk

/-- There are as many nodes below a node as before. -/
theorem sizeBelow_eq (hx : a.Live x) : b.sizeBelow (f x) = a.sizeBelow x := by
  rw [sizeBelow, sizeBelow, hb.sizeWithin_eq (h.live hx), ha.sizeWithin_eq hx,
    h.walk_size ha hb hx, List.length_map]

end

end Renumbers

/-! ## Compacting -/

namespace CompactedTo

variable {a b : Arena} {x : NodeId}

/-- An arena that was compacted is that of its program. -/
theorem eq_ofProgram (hc : a.CompactedTo b) {p : Program} (hp : a.toProgram = .ok p) :
    b = ofProgram p :=
  Except.ok.inj (hc.compact_eq.symm.trans (compact_eq_ofProgram hp))

/-- An arena that was compacted is well formed. -/
theorem wellFormed (h : a.WellFormed) (hc : a.CompactedTo b) : b.WellFormed := by
  obtain ⟨p, hp, -⟩ := h.exists_toProgram
  rw [hc.eq_ofProgram hp]
  exact wellFormed_ofProgram p

/-- Compacting gives each live node its position in a walk as its number. -/
theorem renumbers (h : a.WellFormed) (hc : a.CompactedTo b) :
    Renumbers a.preorder.idxOf a b := by
  have hb := hc.wellFormed h
  have hroot : a.preorder.idxOf root = root := List.idxOf_cons_self
  have hat {x : NodeId} (hx : a.Live x) : a.preorder[a.preorder.idxOf x]? = some x :=
    List.getElem?_idxOf (h.mem_preorder_iff.2 hx)
  have hlive {x : NodeId} (hx : a.Live x) : b.Live (a.preorder.idxOf x) := by
    refine hb.rooted.isLive_iff.1 (hc.isLive ?_)
    rw [hc.size_eq]
    exact List.idxOf_lt_length_of_mem (h.mem_preorder_iff.2 hx)
  have hparent {x : NodeId} (hx : a.Live x) :
      b.parent? (a.preorder.idxOf x) = (a.parent? x).map a.preorder.idxOf := by
    cases hx with
    | self => rw [hroot, hb.root_parent, h.root_parent, Option.map_none]
    | @child p x hp hx =>
      rw [h.parent_of_live hp hx]
      refine hb.parent_of_live (hlive hp) ?_
      rw [hc.childrenOf_eq (hat hp)]
      exact List.mem_map_of_mem hx
  refine ⟨hroot, fun {x} hx => ?_⟩
  obtain ⟨node, hn⟩ := lt_size_iff.1 (h.lt_size_of_live hx)
  rw [hn, Option.map_some, get?_eq_some_iff, hc.data?_eq (hat hx), hc.childrenOf_eq (hat hx),
    hparent hx, data?_of_get? hn, childrenOf_of_get? hn, parent?_of_get? hn]
  exact ⟨rfl, rfl, rfl⟩

end CompactedTo

end Arena

end ShaderShrink

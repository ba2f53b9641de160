import Mathlib.Data.List.Perm.Subperm
import ShaderShrink.Proofs.Arena.Edit

/-!
# Arenas whose live nodes form a tree

`Arena.Live` says that the root leads to a node along child lists, and `Arena.Rooted` that the live
nodes form a tree: parent links answer the child lists of live nodes, and the root has no parent.
It says nothing of detached nodes, so it holds wherever edits lead.

Parents are unique in such an arena, so a live node has one distance from the root
(`Rooted.depth_unique`), and the way to it visits no node twice, which makes the distance smaller
than the arena (`Rooted.depth_lt_size`). This is why the bounds of the walks do no harm: walking up
finds the live nodes (`Rooted.isLive_iff`), and so does walking down (`Rooted.mem_preorder_iff`),
which ends on its own (`Rooted.walk_eq_preorder`) and visits none twice (`Rooted.nodup_preorder`).
-/

namespace ShaderShrink.Arena

/-- The node `x` leads to the node along child lists. -/
inductive Below (a : Arena) (x : NodeId) : NodeId → Prop
  | self : a.Below x x
  | child {p c : NodeId} : a.Below x p → c ∈ a.childrenOf p → a.Below x c

/-- The root leads to the node along child lists. -/
abbrev Live (a : Arena) : NodeId → Prop := a.Below root

/-- The node `x` leads to the node along child lists in a number of steps. -/
inductive BelowIn (a : Arena) (x : NodeId) : Nat → NodeId → Prop
  | self : a.BelowIn x 0 x
  | child {n : Nat} {p c : NodeId} :
    a.BelowIn x n p → c ∈ a.childrenOf p → a.BelowIn x (n + 1) c

/-- The live nodes form a tree. -/
structure Rooted (a : Arena) : Prop where
  root_lt : root < a.size
  root_parent : a.parent? root = none
  child_lt {p c : NodeId} : a.Live p → c ∈ a.childrenOf p → c < a.size
  nodup {p : NodeId} : a.Live p → (a.childrenOf p).Nodup
  parent_of_live {p c : NodeId} : a.Live p → c ∈ a.childrenOf p → a.parent? c = some p

section
variable {a : Arena} {x y z p c d : NodeId} {n m : Nat}

/-- What is below a node is below what that node is below. -/
theorem Below.trans (hxy : a.Below x y) (hyz : a.Below y z) : a.Below x z := by
  induction hyz with
  | self => exact hxy
  | child _ hc ih => exact ih.child hc

/-- A node is below another one if some number of steps leads down to it. -/
theorem below_iff : a.Below x y ↔ ∃ n, a.BelowIn x n y := by
  constructor
  · intro h
    induction h with
    | self => exact ⟨0, .self⟩
    | child _ hc ih =>
      obtain ⟨n, h⟩ := ih
      exact ⟨n + 1, h.child hc⟩
  · rintro ⟨n, h⟩
    induction h with
    | self => exact .self
    | child _ hc ih => exact ih.child hc

/-- What some steps lead down to is below. -/
theorem BelowIn.toBelow (h : a.BelowIn x n y) : a.Below x y := below_iff.2 ⟨n, h⟩

/-- Steps down add up. -/
theorem BelowIn.trans (hxy : a.BelowIn x n y) (hyz : a.BelowIn y m z) :
    a.BelowIn x (n + m) z := by
  induction hyz with
  | self => exact hxy
  | child _ hc ih => exact ih.child hc

/-- The way down from a node starts with one of its children. -/
theorem belowIn_succ_iff : a.BelowIn x (n + 1) y ↔ ∃ c ∈ a.childrenOf x, a.BelowIn c n y := by
  constructor
  · intro h
    induction n generalizing y with
    | zero =>
      cases h with
      | child h hc =>
        cases h
        exact ⟨y, hc, .self⟩
    | succ n ih =>
      cases h with
      | child h hy =>
        obtain ⟨c, hc, h⟩ := ih h
        exact ⟨c, hc, h.child hy⟩
  · rintro ⟨c, hc, h⟩
    have := (BelowIn.self.child hc).trans h
    rwa [Nat.add_comm] at this

/-- A walk meets what is below its start by fewer steps than it has levels. -/
theorem mem_walk_iff : y ∈ a.walk n x ↔ ∃ m < n, a.BelowIn x m y := by
  induction n generalizing x with
  | zero => simp [walk]
  | succ n ih =>
    simp only [walk, List.mem_cons, List.mem_flatMap, ih]
    constructor
    · rintro (rfl | ⟨c, hc, m, hm, h⟩)
      · exact ⟨0, Nat.succ_pos n, .self⟩
      · exact ⟨m + 1, Nat.succ_lt_succ hm, belowIn_succ_iff.2 ⟨c, hc, h⟩⟩
    · rintro ⟨m, hm, h⟩
      cases m with
      | zero =>
        cases h
        exact .inl rfl
      | succ m =>
        obtain ⟨c, hc, h⟩ := belowIn_succ_iff.1 h
        exact .inr ⟨c, hc, m, Nat.lt_of_succ_lt_succ hm, h⟩

/-- Walking up ends only at the root. -/
theorem live_of_attachedWithin (h : a.attachedWithin n x = true) : a.Live x := by
  induction n generalizing x with
  | zero => cases h
  | succ n ih =>
    rw [attachedWithin, Bool.or_eq_true, beq_iff_eq] at h
    rcases h with rfl | h
    · exact .self
    · split at h
      · cases h
      · rw [Bool.and_eq_true, List.contains_iff_mem] at h
        exact .child (ih h.2) h.1

namespace Rooted

variable (h : a.Rooted)
include h

/-- What is live is a node. -/
theorem lt_size_of_live (hx : a.Live x) : x < a.size := by
  cases hx with
  | self => exact h.root_lt
  | child hp hc => exact h.child_lt hp hc

/-- The root is no live node's child. -/
theorem root_not_mem (hp : a.Live p) : root ∉ a.childrenOf p := by
  intro hc
  have hr := h.parent_of_live hp hc
  rw [h.root_parent] at hr
  cases hr

/-- A node is a child of at most one live node. -/
theorem live_unique (hx : a.Live x) (hy : a.Live y) (hcx : c ∈ a.childrenOf x)
    (hcy : c ∈ a.childrenOf y) : x = y := by
  have := (h.parent_of_live hx hcx).symm.trans (h.parent_of_live hy hcy)
  injection this

/-! ## Distances from the root -/

/-- A live node has one distance from the root. -/
theorem depth_unique (hn : a.BelowIn root n x) (hm : a.BelowIn root m x) : n = m := by
  induction hn generalizing m with
  | self =>
    cases m with
    | zero => rfl
    | succ m =>
      cases hm with
      | child hm hc => exact absurd hc (h.root_not_mem hm.toBelow)
  | @child n p c hp hc ih =>
    cases hm with
    | self => exact absurd hc (h.root_not_mem hp.toBelow)
    | child hm hc' =>
      cases h.live_unique hp.toBelow hm.toBelow hc hc'
      rw [ih hm]

/-- The way to a live node visits every distance up to that of the node, no node twice. -/
theorem exists_way (hn : a.BelowIn root n x) :
    ∃ way : List NodeId, way.length = n + 1 ∧ way.Nodup ∧
      ∀ y ∈ way, ∃ m ≤ n, a.BelowIn root m y := by
  induction hn with
  | self =>
    refine ⟨[root], rfl, List.nodup_singleton root, ?_⟩
    rw [List.forall_mem_singleton]
    exact ⟨0, Nat.le_refl 0, .self⟩
  | @child n p c hp hc ih =>
    obtain ⟨way, hlen, hnd, hway⟩ := ih
    refine ⟨c :: way, by rw [List.length_cons, hlen], List.nodup_cons.2 ⟨?_, hnd⟩, ?_⟩
    · intro hm
      obtain ⟨m, hle, hcm⟩ := hway c hm
      have := h.depth_unique (hp.child hc) hcm
      omega
    · refine List.forall_mem_cons.2 ⟨⟨n + 1, Nat.le_refl _, hp.child hc⟩, ?_⟩
      intro y hy
      obtain ⟨m, hle, hym⟩ := hway y hy
      exact ⟨m, Nat.le_succ_of_le hle, hym⟩

/-- There are more nodes than steps on the way to a live node. -/
theorem depth_lt_size (hn : a.BelowIn root n x) : n < a.size := by
  obtain ⟨way, hlen, hnd, hway⟩ := h.exists_way hn
  -- the nodes on the way are different numbers below the size
  have hsub : way ⊆ List.range a.size := by
    intro y hy
    obtain ⟨m, -, hym⟩ := hway y hy
    exact List.mem_range.2 (h.lt_size_of_live hym.toBelow)
  have := (hnd.subperm hsub).length_le
  rw [hlen, List.length_range] at this
  exact this

/-! ## Walking up -/

/-- As many links lead up from a node as steps lead down to it. -/
theorem attachedWithin_of_belowIn (hn : a.BelowIn root n x) (hm : n < m) :
    a.attachedWithin m x = true := by
  induction hn generalizing m with
  | self =>
    obtain ⟨m, rfl⟩ := Nat.exists_eq_add_of_lt hm
    simp [attachedWithin]
  | @child n p c hp hc ih =>
    cases m with
    | zero => cases hm
    | succ m =>
      rw [attachedWithin, h.parent_of_live hp.toBelow hc]
      simp only [Bool.or_eq_true, Bool.and_eq_true, List.contains_iff_mem]
      exact .inr ⟨hc, ih (Nat.lt_of_succ_lt_succ hm)⟩

/-- Walking up tells whether a node is live: the bound never cuts a walk short. -/
theorem isLive_iff : a.isLive x = true ↔ a.Live x := by
  refine ⟨live_of_attachedWithin, ?_⟩
  intro hx
  obtain ⟨n, hn⟩ := below_iff.1 hx
  exact h.attachedWithin_of_belowIn hn (Nat.lt_succ_of_lt (h.depth_lt_size hn))

/-- Parent links and child lists agree on the children of live nodes. -/
theorem hasChild_iff : a.hasChild p c = true ↔ a.Live p ∧ c ∈ a.childrenOf p := by
  rw [Arena.hasChild_iff, h.isLive_iff]
  constructor
  · rintro ⟨-, hc, hp⟩
    exact ⟨hp, hc⟩
  · rintro ⟨hp, hc⟩
    exact ⟨h.parent_of_live hp hc, hc, hp⟩

/-! ## Walking down -/

/-- Walking down from the root meets the live nodes. -/
theorem mem_preorder_iff : x ∈ a.preorder ↔ a.Live x := by
  rw [preorder, mem_walk_iff]
  constructor
  · rintro ⟨n, -, hn⟩
    exact hn.toBelow
  · intro hx
    obtain ⟨n, hn⟩ := below_iff.1 hx
    exact ⟨n, Nat.lt_succ_of_lt (h.depth_lt_size hn), hn⟩

/-- A walk that goes down as far as there are nodes goes no further with more levels. -/
theorem walk_congr (hx : a.BelowIn root d x) (hn : a.size ≤ d + n) (hm : a.size ≤ d + m) :
    a.walk n x = a.walk m x := by
  have hd := h.depth_lt_size hx
  induction n generalizing m d x with
  | zero => omega
  | succ n ih =>
    cases m with
    | zero => omega
    | succ m =>
      rw [walk, walk]
      congr 1
      refine List.flatMap_congr fun c hc => ?_
      have hc := hx.child hc
      exact ih hc (by omega) (by omega) (h.depth_lt_size hc)

/-- Walking down ends on its own: further levels add nothing. -/
theorem walk_eq_preorder (hn : a.size < n) : a.walk n root = a.preorder :=
  h.walk_congr .self (by omega) (by omega)

/-- A node is not below its children. -/
theorem not_below_of_mem (hp : a.Live p) (hc : c ∈ a.childrenOf p) : ¬ a.Below c p := by
  intro hcp
  obtain ⟨n, hn⟩ := below_iff.1 hp
  obtain ⟨m, hm⟩ := below_iff.1 hcp
  have := h.depth_unique ((hn.child hc).trans hm) hn
  omega

/-- Walking down from a live node, a child of it is met only at the start of its own part. -/
theorem eq_of_below_child (hp : a.Live p) (hc : c ∈ a.childrenOf p) (hd : d ∈ a.childrenOf p)
    (hdc : a.Below d c) : d = c := by
  obtain ⟨n, hn⟩ := below_iff.1 hp
  obtain ⟨m, hm⟩ := below_iff.1 hdc
  have := h.depth_unique ((hn.child hd).trans hm) (hn.child hc)
  obtain rfl : m = 0 := by omega
  cases hm
  rfl

/-- No node is below two children of a live node. -/
theorem child_unique (hp : a.Live p) (hc : c ∈ a.childrenOf p) (hd : d ∈ a.childrenOf p)
    (hcy : a.Below c y) (hdy : a.Below d y) : c = d := by
  induction hcy with
  | self => exact (h.eq_of_below_child hp hc hd hdy).symm
  | @child q y hq hyq ih =>
    have hlq : a.Live q := (hp.child hc).trans hq
    generalize hz : y = z at hdy
    cases hdy with
    | self =>
      subst hz
      exact h.eq_of_below_child hp hd hc (hq.child hyq)
    | @child r _ hr hyr =>
      subst hz
      have hlr : a.Live r := (hp.child hd).trans hr
      cases h.live_unique hlq hlr hyq hyr
      exact ih hr

/-- A walk down from a live node meets no node twice. -/
theorem nodup_walk (hx : a.Live x) : (a.walk n x).Nodup := by
  have below {m : Nat} {y z : NodeId} (hz : z ∈ a.walk m y) : a.Below y z := by
    obtain ⟨k, -, hk⟩ := mem_walk_iff.1 hz
    exact hk.toBelow
  induction n generalizing x with
  | zero => exact .nil
  | succ n ih =>
    rw [walk, List.nodup_cons, List.nodup_flatMap]
    refine ⟨?_, fun c hc => ih (hx.child hc), ?_⟩
    · intro hm
      obtain ⟨c, hc, hm⟩ := List.mem_flatMap.1 hm
      exact h.not_below_of_mem hx hc (below hm)
    · refine (h.nodup hx).imp_of_mem fun {c d} hc hd hne y hyc hyd => hne ?_
      exact h.child_unique hx hc hd (below hyc) (below hyd)

/-- The walk from the root comes to every node once. -/
theorem nodup_preorder : a.preorder.Nodup := h.nodup_walk .self

end Rooted

end

end ShaderShrink.Arena

import ShaderShrink.Proofs.Arena.Renumbering

/-!
# Walking up and walking down

Whether a node is live can be told from above, by walking down child lists, and from below, by
walking up parent links; a detached node keeps its child list, which may name live nodes, so the two
need not agree on their own. `Arena.WalksAgree` says that they do: on which nodes are live, on who
is whose child, and on how far a live node is from the root. It also says that the bounds of the
walks do no harm, which for a walk up from a detached node is due to numbers that fall from a node
to its parent (`WellFormed.depthWithin_congr`).

Well-formed arenas are such arenas (`WellFormed.walksAgree`), and so are all that trying and undoing
changes leads to (`History.walksAgree_run`).
-/

namespace ShaderShrink

namespace Arena

/-- Walks up and walks down agree, and no walk is cut short. -/
structure WalksAgree (a : Arena) : Prop where
  /-- Walking down meets each live node once. -/
  nodup_preorder : a.preorder.Nodup
  mem_preorder_iff {x : NodeId} : x ∈ a.preorder ↔ a.Live x
  /-- Walking up ends at the root from exactly the nodes that walking down meets. -/
  isLive_iff {x : NodeId} : a.isLive x = true ↔ x ∈ a.preorder
  hasChild_iff {p c : NodeId} : a.hasChild p c = true ↔ p ∈ a.preorder ∧ c ∈ a.childrenOf p
  /-- The number of parent links above a node that is met is its distance from the root, and the
  only one. -/
  belowIn_iff {n : Nat} {x : NodeId} : a.BelowIn root n x ↔ x ∈ a.preorder ∧ n = a.depth x
  depth_lt {x : NodeId} : x ∈ a.preorder → a.depth x < a.size
  /-- With more steps, or more levels, the walks give the same. -/
  attachedWithin_eq {n : Nat} {x : NodeId} : a.size < n → a.attachedWithin n x = a.isLive x
  depthWithin_eq {n : Nat} {x : NodeId} : a.size < n → a.depthWithin n x = a.depth x
  walk_eq {n : Nat} : a.size < n → a.walk n root = a.preorder

namespace WellFormed

variable {a : Arena} {x p n m : Nat}

/-- Numbers fall from a node to its parent, be the node live or not. -/
theorem parent_lt_of_parent? (h : a.WellFormed) (hp : a.parent? x = some p) : p < x :=
  h.lt_child (h.mem_of_parent hp)

/-- Following parent links from a node takes no more steps than the number of the node. -/
theorem depthWithin_congr (h : a.WellFormed) (hn : x < n) (hm : x < m) :
    a.depthWithin n x = a.depthWithin m x := by
  induction n generalizing m x with
  | zero => cases hn
  | succ n ih =>
    cases m with
    | zero => cases hm
    | succ m =>
      rw [depthWithin, depthWithin]
      split
      · rfl
      · next p hp =>
        have hlt := h.parent_lt_of_parent? hp
        exact congrArg (· + 1)
          (ih (Nat.lt_of_lt_of_le hlt (Nat.le_of_lt_succ hn))
            (Nat.lt_of_lt_of_le hlt (Nat.le_of_lt_succ hm)))

/-- Only nodes that exist have parents, so their number bounds every walk up. -/
theorem depthWithin_eq (h : a.WellFormed) (hn : a.size < n) : a.depthWithin n x = a.depth x := by
  by_cases hx : x < a.size
  · exact h.depthWithin_congr (hx.trans hn) (Nat.lt_succ_of_lt hx)
  · have hroot : a.parent? x = none := parent?_of_size_le (Nat.le_of_not_lt hx)
    obtain ⟨n, rfl⟩ := Nat.exists_eq_add_of_lt hn
    simp [depth, depthWithin, hroot]

/-- A walk up with more steps reaches the root from the same nodes. -/
theorem attachedWithin_eq (h : a.WellFormed) (hn : a.size < n) :
    a.attachedWithin n x = a.isLive x := by
  rw [Bool.eq_iff_iff, h.rooted.isLive_iff]
  refine ⟨live_of_attachedWithin, fun hx => ?_⟩
  obtain ⟨d, hd⟩ := below_iff.1 hx
  exact h.rooted.attachedWithin_of_belowIn hd ((h.rooted.depth_lt_size hd).trans hn)

/-- In a well-formed arena all ways to look at the live nodes agree. -/
theorem walksAgree (h : a.WellFormed) : a.WalksAgree where
  nodup_preorder := h.nodup_preorder
  mem_preorder_iff := h.mem_preorder_iff
  isLive_iff := h.rooted.isLive_iff.trans h.mem_preorder_iff.symm
  hasChild_iff := h.hasChild_iff.trans (and_congr_left' h.mem_preorder_iff.symm)
  belowIn_iff := by
    intro n x
    rw [h.mem_preorder_iff]
    constructor
    · exact fun hn => ⟨hn.toBelow, (h.rooted.depth_eq hn).symm⟩
    · rintro ⟨hx, rfl⟩
      exact h.rooted.belowIn_depth hx
  depth_lt hx := h.rooted.depth_lt_size (h.rooted.belowIn_depth (h.mem_preorder_iff.1 hx))
  attachedWithin_eq := h.attachedWithin_eq
  depthWithin_eq := h.depthWithin_eq
  walk_eq := h.rooted.walk_eq_preorder

end WellFormed

end Arena

/-- Whatever is tried and undone in the arena of a program, and however many detached nodes that
leaves behind, walks up and walks down agree. -/
theorem History.walksAgree_run (p : Program) (steps : List HistoryStep) :
    (run ⟨Arena.ofProgram p, []⟩ steps).arena.WalksAgree :=
  (wellFormed_run p steps).walksAgree

end ShaderShrink

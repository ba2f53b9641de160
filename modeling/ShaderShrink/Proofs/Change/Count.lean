import ShaderShrink.Proofs.Change.Found

/-!
# How many changes there are

Every node that has a parent is the target of at most one change that takes it away or makes a
literal of it, and it can stand in for its parent at most once. So the changes of a node are no more
than its children and one (`Arena.length_changesAt_le`), and since the live nodes are the root and
the children of live nodes (`Arena.Rooted.length_children`), there are at most two opportunities for
each live node but the root (`FinderConfig.length_find_le`).
-/

namespace List

variable {α β γ : Type}

/-- Lists that are each longer by one at most are longer together by at most the number of lists. -/
theorem length_flatMap_le {l : List α} {f : α → List β} {g : α → List γ}
    (h : ∀ x ∈ l, (f x).length ≤ (g x).length + 1) :
    (l.flatMap f).length ≤ (l.flatMap g).length + l.length := by
  induction l with
  | nil => exact Nat.le_refl 0
  | cons x rest ih =>
    obtain ⟨hx, hrest⟩ := forall_mem_cons.1 h
    have := ih hrest
    simp only [flatMap_cons, length_append, length_cons]
    omega

end List

namespace ShaderShrink

namespace Arena

variable {a : Arena} {parent id : NodeId} {node : Node} {config : FinderConfig}

/-! ## The live nodes -/

/-- The live nodes are the root and the children of live nodes. -/
theorem Rooted.perm_preorder (h : a.Rooted) :
    (root :: a.preorder.flatMap a.childrenOf).Perm a.preorder := by
  refine (List.perm_ext_iff_of_nodup ?_ h.nodup_preorder).2 fun x => ?_
  · rw [List.nodup_cons, List.nodup_flatMap]
    refine ⟨?_, fun p hp => h.nodup (h.mem_preorder_iff.1 hp), ?_⟩
    · intro hr
      obtain ⟨p, hp, hr⟩ := List.mem_flatMap.1 hr
      exact h.root_not_mem (h.mem_preorder_iff.1 hp) hr
    · refine h.nodup_preorder.imp_of_mem fun {p q} hp hq hne c hcp hcq => hne ?_
      exact h.live_unique (h.mem_preorder_iff.1 hp) (h.mem_preorder_iff.1 hq) hcp hcq
  · rw [List.mem_cons, List.mem_flatMap, h.mem_preorder_iff]
    constructor
    · rintro (rfl | ⟨p, hp, hx⟩)
      · exact .self
      · exact .child (h.mem_preorder_iff.1 hp) hx
    · intro hx
      cases hx with
      | self => exact .inl rfl
      | child hp hx => exact .inr ⟨_, h.mem_preorder_iff.2 hp, hx⟩

/-- The live nodes have one child less than there are live nodes. -/
theorem Rooted.length_children (h : a.Rooted) :
    (a.preorder.flatMap a.childrenOf).length + 1 = a.liveCount := by
  rw [← List.length_cons, h.perm_preorder.length_eq, liveCount]

/-! ## The changes of a node -/

/-- An expression has a change for each of its children, and one more. -/
theorem length_exprChanges_le :
    (a.exprChanges parent id node).length ≤ node.children.length + 1 := by
  have hoperands : (operandsOf node).length ≤ node.children.length := operandsOf_sublist.length_le
  unfold exprChanges
  split
  · simpa using hoperands
  · simpa using Nat.le_succ_of_le hoperands

/-- A statement has a change for each of its children, and one more. -/
theorem length_stmtChanges_le :
    (a.stmtChanges config parent id node).length ≤ node.children.length + 1 := by
  have hinner : (innerStatementsOf node).length ≤ node.children.length :=
    innerStatementsOf_sublist.length_le
  unfold stmtChanges
  split
  · exact Nat.zero_le _
  · rw [List.length_append, Nat.add_comm]
    refine Nat.add_le_add ?_ ?_
    · split
      · rwa [List.length_map]
      · exact Nat.zero_le _
    · split
      · exact Nat.le_refl 1
      · exact Nat.zero_le _

/-- A declaration has one change at most. -/
theorem length_declChanges_le : (declChanges config parent id node).length ≤ 1 := by
  unfold declChanges
  split
  · split
    · exact Nat.zero_le _
    · exact Nat.le_refl 1
  · exact Nat.le_refl 1

/-- A node has at most one change for each child and one more. -/
theorem length_changesAt_le : (a.changesAt config id).length ≤ (a.childrenOf id).length + 1 := by
  unfold changesAt
  split
  · next node hn =>
    rw [childrenOf_of_get? hn]
    split
    · exact Nat.zero_le _
    · split
      · split
        · exact length_exprChanges_le
        · exact Nat.zero_le _
      · exact length_stmtChanges_le
      · split
        · exact Nat.le_trans length_declChanges_le (Nat.le_add_left ..)
        · exact Nat.zero_le _
      · exact Nat.zero_le _
  · exact Nat.zero_le _

/-- A node without a parent has no changes. -/
theorem changesAt_of_parent? (h : a.parent? id = none) : a.changesAt config id = [] := by
  unfold changesAt
  split
  · next node hn =>
    rw [parent?_of_get? hn] at h
    rw [h]
  · rfl

end Arena

open Arena

/-- There are at most two opportunities for each live node but the root. -/
theorem FinderConfig.length_find_le {config : FinderConfig} {a : Arena} (h : a.Rooted) :
    (config.find a).length ≤ 2 * (a.liveCount - 1) := by
  have hstart : a.preorder = root :: (a.childrenOf root).flatMap (a.walk a.size) := rfl
  generalize (a.childrenOf root).flatMap (a.walk a.size) = others at hstart
  have hroot : a.opportunitiesAt config root = [] := by
    rw [opportunitiesAt, changesAt_of_parent? h.root_parent]
    rfl
  have hothers : (others.flatMap (a.opportunitiesAt config)).length ≤
      (others.flatMap a.childrenOf).length + others.length := by
    refine List.length_flatMap_le fun id _ => ?_
    rw [opportunitiesAt, List.length_map]
    exact length_changesAt_le
  have hchildren := h.length_children
  rw [find, List.length_mergeSort, liveCount, hstart, List.flatMap_cons, hroot]
  rw [liveCount, hstart, List.flatMap_cons] at hchildren
  simp only [List.length_append, List.length_cons, List.length_nil] at hchildren ⊢
  omega

end ShaderShrink

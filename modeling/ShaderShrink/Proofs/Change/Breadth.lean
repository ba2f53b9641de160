import ShaderShrink.Proofs.Change.Local
import ShaderShrink.Proofs.Change.Renumbering

/-!
# The order in which changes are found

Opportunities are found in breadth order (`Opportunity.Precedes`): those near the root first, those
of one distance in the order of a walk, and those of one node as `Change.Precedes` says. The walk
gives the order of opportunities of one distance, and sorting them by distance keeps it
(`pairwise_mergeSort`).

`FinderConfig.find_run` puts this together with what compacting does: whatever was tried and undone
before, and whatever nodes that left behind, the list is the one of the program that is read from
the arena, in this order and without duplicates.
-/

namespace ShaderShrink

open Arena

/-- Of two changes of one node, the first comes before the second: operands come from left to right
and before the literal; the removal comes before the statements inside, and these from left to
right. -/
inductive Change.Precedes (a : Arena) : Change → Change → Prop
  | operand {parent target left right : NodeId} :
    (a.childrenOf target).idxOf left < (a.childrenOf target).idxOf right →
    Precedes a (.simplifyExpr parent target (.operand left))
      (.simplifyExpr parent target (.operand right))
  | literal {parent target node : NodeId} {value : LiteralValue} :
    Precedes a (.simplifyExpr parent target (.operand node))
      (.simplifyExpr parent target (.literal value))
  | removal {parent target inner : NodeId} :
    Precedes a (.removeStatement parent target) (.collapseStatement parent target inner)
  | inner {parent target left right : NodeId} :
    (a.childrenOf target).idxOf left < (a.childrenOf target).idxOf right →
    Precedes a (.collapseStatement parent target left) (.collapseStatement parent target right)

/-- Of two opportunities, the first comes before the second: its target is nearer to the root, or as
near and met earlier in a walk, or the same and its change comes before the other. -/
inductive Opportunity.Precedes (a : Arena) (x y : Opportunity) : Prop
  | depth {n m : Nat} : a.BelowIn root n x.change.target → a.BelowIn root m y.change.target →
    n < m → Precedes a x y
  | position {n : Nat} : a.BelowIn root n x.change.target → a.BelowIn root n y.change.target →
    a.preorder.idxOf x.change.target < a.preorder.idxOf y.change.target → Precedes a x y
  | change : x.change.Precedes a y.change → Precedes a x y

/-- No opportunity comes before itself. -/
theorem Opportunity.not_precedes_self {a : Arena} (o : Opportunity) (h : a.Rooted) :
    ¬ o.Precedes a o := by
  intro ho
  cases ho with
  | depth hn hm hlt => exact Nat.ne_of_lt hlt (h.depth_unique hn hm)
  | position _ _ hlt => exact Nat.lt_irrefl _ hlt
  | change ho =>
    generalize o.change = c at ho
    cases ho with
    | operand hlt | inner hlt => exact Nat.lt_irrefl _ hlt

/-! ## Sorting -/

/-- In a list without duplicates, positions grow. -/
theorem pairwise_idxOf_lt {ids : List NodeId} (h : ids.Nodup) :
    ids.Pairwise fun x y => ids.idxOf x < ids.idxOf y := by
  refine List.pairwise_iff_getElem.2 fun i j hi hj hij => ?_
  rwa [h.idxOf_getElem, h.idxOf_getElem]

section
variable {α : Type} (key : α → Nat)

/-- The order of keys is transitive. -/
theorem key_le_trans (x y z : α) (hxy : decide (key x ≤ key y) = true)
    (hyz : decide (key y ≤ key z) = true) : decide (key x ≤ key z) = true :=
  decide_eq_true (Nat.le_trans (of_decide_eq_true hxy) (of_decide_eq_true hyz))

/-- Any two keys are in order one way or the other. -/
theorem key_le_total (x y : α) : (decide (key x ≤ key y) || decide (key y ≤ key x)) = true := by
  simpa using Nat.le_total (key x) (key y)

/-- Sorting by a key leaves the list of the elements with one key as it is. -/
theorem filter_mergeSort (xs : List α) (n : Nat) :
    (xs.mergeSort fun x y => key x ≤ key y).filter (key · = n) = xs.filter (key · = n) := by
  have hsub : (xs.filter (key · = n)).Sublist (xs.mergeSort fun x y => key x ≤ key y) := by
    refine List.sublist_mergeSort (key_le_trans key) (key_le_total key) ?_ List.filter_sublist
    refine List.pairwise_of_forall_mem_list fun x hx y hy => ?_
    have hx := of_decide_eq_true (List.mem_filter.1 hx).2
    have hy := of_decide_eq_true (List.mem_filter.1 hy).2
    exact decide_eq_true (Nat.le_of_eq (hx.trans hy.symm))
  have hsub := hsub.filter (key · = n)
  rw [List.filter_filter] at hsub
  simp only [Bool.and_self] at hsub
  exact (hsub.eq_of_length ((List.mergeSort_perm xs _).filter _).length_eq.symm).symm

/-- Sorting by a key leaves elements with the same key in their order. -/
theorem pairwise_mergeSort {R : α → α → Prop} {xs : List α} (h : xs.Pairwise R) :
    (xs.mergeSort fun x y => key x ≤ key y).Pairwise
      fun x y => key x < key y ∨ key x = key y ∧ R x y := by
  have hsorted := List.pairwise_mergeSort (key_le_trans key) (key_le_total key) xs
  rw [List.pairwise_iff_forall_sublist] at hsorted h ⊢
  intro x y hxy
  rcases Nat.lt_or_eq_of_le (of_decide_eq_true (hsorted hxy)) with hlt | heq
  · exact .inl hlt
  · -- the two are a part of the list of the elements with their key
    have hboth := hxy.filter (key · = key y)
    rw [filter_mergeSort] at hboth
    simp only [List.filter_cons, heq, List.filter_nil, decide_true, if_true] at hboth
    exact .inr ⟨heq, h (hboth.trans List.filter_sublist)⟩

end

/-! ## The changes of a node -/

namespace Arena

variable {a : Arena} {config : FinderConfig} {id parent : NodeId} {node : Node} {c : Change}

/-- The changes of an expression are in order. -/
theorem pairwise_exprChanges (hn : a.get? id = some node) (hnodup : (a.childrenOf id).Nodup) :
    (a.exprChanges parent id node).Pairwise (Change.Precedes a) := by
  have hoperands : ((operandsOf node).map fun operand =>
      Change.simplifyExpr parent id (.operand operand)).Pairwise (Change.Precedes a) := by
    have hsub : (operandsOf node).Sublist (a.childrenOf id) :=
      childrenOf_of_get? hn ▸ operandsOf_sublist
    exact List.pairwise_map.2 (((pairwise_idxOf_lt hnodup).sublist hsub).imp .operand)
  unfold exprChanges
  split
  · refine List.pairwise_append.2 ⟨hoperands, List.pairwise_singleton .., ?_⟩
    intro c hc d hd
    obtain ⟨operand, -, rfl⟩ := List.mem_map.1 hc
    cases List.mem_singleton.1 hd
    exact .literal
  · exact hoperands

/-- The changes of a statement are in order. -/
theorem pairwise_stmtChanges (hn : a.get? id = some node) (hnodup : (a.childrenOf id).Nodup) :
    (a.stmtChanges config parent id node).Pairwise (Change.Precedes a) := by
  unfold stmtChanges
  split
  · exact .nil
  refine List.pairwise_append.2 ⟨?_, ?_, ?_⟩
  · split
    · exact List.pairwise_singleton ..
    · exact .nil
  · split
    · have hsub : (innerStatementsOf node).Sublist (a.childrenOf id) :=
        childrenOf_of_get? hn ▸ innerStatementsOf_sublist
      exact List.pairwise_map.2 (((pairwise_idxOf_lt hnodup).sublist hsub).imp .inner)
    · exact .nil
  · intro c hc d hd
    split at hc
    · cases List.mem_singleton.1 hc
      split at hd
      · obtain ⟨inner, -, rfl⟩ := List.mem_map.1 hd
        exact .removal
      · cases hd
    · cases hc

/-- The changes at a node are in order. -/
theorem pairwise_changesAt (h : a.WellFormed) :
    (a.changesAt config id).Pairwise (Change.Precedes a) := by
  unfold changesAt
  split
  · next node hn =>
    split
    · exact .nil
    split
    · split
      · exact pairwise_exprChanges hn (h.nodup id)
      · exact .nil
    · exact pairwise_stmtChanges hn (h.nodup id)
    · split
      · unfold declChanges
        split
        · split
          · exact .nil
          · exact List.pairwise_singleton ..
        · exact List.pairwise_singleton ..
      · exact .nil
    · exact .nil
  · exact .nil

/-- The changes of a node are about that node. -/
theorem target_of_mem_changesAt (hc : c ∈ a.changesAt config id) : c.target = id := by
  obtain ⟨node, parent, -, -, hfound⟩ := exists_foundAt hc
  cases hfound <;> rfl

end Arena

/-! ## The opportunities of an arena -/

namespace FinderConfig

variable {config : FinderConfig} {a : Arena} {o : Opportunity}

/-- An opportunity is about a live node, and tells how far this node is from the root. -/
theorem belowIn_of_mem_find (h : a.WellFormed) (ho : o ∈ config.find a) :
    a.BelowIn root o.depth o.change.target := by
  obtain ⟨id, hid, c, hc, rfl⟩ := mem_find_iff.1 ho
  rw [target_of_mem_changesAt hc]
  exact h.rooted.belowIn_depth (h.mem_preorder_iff.1 hid)

/-- Opportunities are found in the order of a walk and, for one node, in the order of its
changes. -/
theorem pairwise_opportunities (h : a.WellFormed) :
    (a.preorder.flatMap (a.opportunitiesAt config)).Pairwise fun x y =>
      a.preorder.idxOf x.change.target < a.preorder.idxOf y.change.target ∨
        x.change.Precedes a y.change := by
  refine List.pairwise_flatMap.2 ⟨fun id _ => ?_, ?_⟩
  · exact List.pairwise_map.2 ((pairwise_changesAt h).imp .inr)
  · refine (pairwise_idxOf_lt h.nodup_preorder).imp fun {i j} hij x hx y hy => .inl ?_
    obtain ⟨c, hc, rfl⟩ := List.mem_map.1 hx
    obtain ⟨d, hd, rfl⟩ := List.mem_map.1 hy
    rwa [target_of_mem_changesAt hc, target_of_mem_changesAt hd]

/-- Opportunities are listed in breadth order. -/
theorem pairwise_find (h : a.WellFormed) :
    (config.find a).Pairwise (Opportunity.Precedes a) := by
  refine List.Pairwise.imp_of_mem (fun {x y} hx hy hxy => ?_)
    (pairwise_mergeSort Opportunity.depth (pairwise_opportunities h))
  have hx := belowIn_of_mem_find h hx
  have hy := belowIn_of_mem_find h hy
  rcases hxy with hlt | ⟨heq, hlt | hxy⟩
  · exact .depth hx hy hlt
  · exact .position hx (heq ▸ hy) hlt
  · exact .change hxy

/-- No opportunity is found twice. -/
theorem nodup_find (h : a.WellFormed) : (config.find a).Nodup := by
  refine List.Pairwise.imp ?_ (pairwise_find h)
  rintro x _ hx rfl
  exact x.not_precedes_self h.rooted hx

/-- Whatever was tried and undone in the arena of a program, the opportunities are those of the
program that is read from the arena, but for the numbers of nodes: these are the positions in a
walk, as they are when the arena is compacted. They are listed in breadth order without duplicates,
each with the distance of its target from the root. -/
theorem find_run (config : FinderConfig) (p : Program) (steps : List HistoryStep) :
    let a := (History.run ⟨ofProgram p, []⟩ steps).arena
    ∃ q, a.toProgram = .ok q ∧ a.CompactedTo (ofProgram q) ∧
      (config.find a).map (Opportunity.renumber a.preorder.idxOf) = config.find (ofProgram q) ∧
      (config.find a).Nodup ∧ (config.find a).Pairwise (Opportunity.Precedes a) ∧
      ∀ o ∈ config.find a, a.BelowIn root o.depth o.change.target := by
  intro a
  have h : a.WellFormed := History.wellFormed_run p steps
  obtain ⟨q, hq, -⟩ := h.exists_toProgram
  obtain ⟨b, hb⟩ := h.exists_compact
  obtain rfl := hb.eq_ofProgram hq
  exact ⟨q, hq, hb, find_renumber (hb.renumbers h) h (hb.wellFormed h), nodup_find h,
    pairwise_find h, fun _ => belowIn_of_mem_find h⟩

end FinderConfig

end ShaderShrink

import ShaderShrink.Change.Search
import ShaderShrink.Proofs.Change.Suits

/-!
# Changes that were found

What is found are the changes of live nodes (`FinderConfig.mem_find_iff`), and a change that is
found at a node is of one of five forms (`Arena.FoundAt`), so what is true of everything that is
found is proved by cases. What is found in a well-formed arena suits it, and its precondition holds
there (`FinderConfig.found_of_mem_find`).
-/

namespace ShaderShrink

/-- A node that has a place for a statement has none for the body of a function. -/
theorem Payload.not_body_of_statement {data : Payload} {i : Nat}
    (h : data.slotKind? i = some .statement) (j : Nat) : data.slotKind? j ≠ some .body := by
  cases data <;> simp_all [slotKind?] <;> split <;> simp

/-- Only a unit has places for declarations. -/
theorem Payload.isVariadic_of_declaration {data : Payload} {i : Nat}
    (h : data.slotKind? i = some .declaration) : data.isVariadic = true := by
  cases data <;> simp_all [slotKind?, isVariadic] <;> split at h <;> cases h

/-- A place that takes a declaration is for declarations. -/
theorem SlotKind.eq_declaration {slot : SlotKind} {data : Payload}
    (ha : slot.accepts data = true) (hd : data.category = .declaration) : slot = .declaration := by
  cases slot with
  | declaration => rfl
  | statement | expression => simp_all [accepts]
  | body =>
    obtain rfl : data = .block := of_decide_eq_true ha
    cases hd

namespace Arena

variable {a : Arena} {id parent inner : Nat} {node : Node} {config : FinderConfig} {c : Change}

/-- The parent of a live node is live and has it as a child. -/
theorem WellFormed.hasChild_of_parent? (h : a.WellFormed) (hl : a.Live id)
    (hp : a.parent? id = some parent) : a.hasChild parent id = true := by
  refine h.hasChild_iff.2 ⟨?_, h.mem_of_parent hp⟩
  cases hl with
  | self =>
    rw [h.root_parent] at hp
    cases hp
  | @child p _ hlp hc =>
    rw [h.parent_of_live hlp hc] at hp
    cases hp
    exact hlp

/-- The operands of an expression are among its children, in their order. -/
theorem operandsOf_sublist : (operandsOf node).Sublist node.children := by
  unfold operandsOf
  split
  any_goals exact List.Sublist.refl _
  · exact List.drop_sublist 1 _
  · exact List.nil_sublist _

/-- The inner statements of a node are among its children, in their order. -/
theorem innerStatementsOf_sublist : (innerStatementsOf node).Sublist node.children := by
  unfold innerStatementsOf
  split
  · exact List.drop_sublist 1 _
  · exact List.drop_sublist 1 _
  · split
    · exact List.Sublist.refl _
    · exact List.nil_sublist _
  · exact List.nil_sublist _

/-- The inner statements of a node are among its children, and they are statements. -/
theorem WellFormed.category?_of_mem_innerStatementsOf (h : a.WellFormed)
    (hn : a.get? id = some node) (hi : inner ∈ innerStatementsOf node) :
    inner ∈ a.childrenOf id ∧ a.category? inner = some .statement := by
  have key {i : Nat} (hi : node.children[i]? = some inner)
      (hs : node.data.slotKind? i = some .statement) :
      inner ∈ a.childrenOf id ∧ a.category? inner = some .statement := by
    rw [← childrenOf_of_get? hn] at hi
    obtain ⟨data, slot, part, hd, hs', hp, ha⟩ := h.slots hi
    rw [data?_of_get? hn] at hd
    cases hd
    rw [hs] at hs'
    cases hs'
    refine ⟨List.mem_of_getElem? hi, ?_⟩
    rw [category?_of_data? hp]
    exact congrArg some (of_decide_eq_true ha)
  have branch (hs : ∀ i, node.data.slotKind? (1 + i) = some .statement)
      (hi : inner ∈ node.children.drop 1) :
      inner ∈ a.childrenOf id ∧ a.category? inner = some .statement := by
    obtain ⟨i, hi⟩ := List.mem_iff_getElem?.1 hi
    exact key (List.getElem?_drop ▸ hi) (hs i)
  unfold innerStatementsOf at hi
  split at hi
  · next hd => exact branch (fun i => by simp [hd, Payload.slotKind?]) hi
  · next hd => exact branch (fun i => by simp [hd, Payload.slotKind?]) hi
  · next hd =>
    split at hi
    · obtain ⟨i, hi⟩ := List.mem_iff_getElem?.1 hi
      exact key hi (by rw [hd]; rfl)
    · cases hi
  · cases hi

/-- More than one node at and below a node means that it has children. -/
theorem children_ne_nil_of_sizeBelow (h : 1 < a.sizeBelow id) : a.childrenOf id ≠ [] := by
  intro he
  rw [sizeBelow, sizeWithin] at h
  split at h
  · cases h
  · next node hn =>
    rw [childrenOf_of_get? hn] at he
    simp [he] at h

/-! ## The changes of a node -/

/-- What can be found at a node with a parent: the operands of an expression and a literal, the
removal of a statement and the statements inside it, and the removal of a declaration. -/
inductive FoundAt (a : Arena) (config : FinderConfig) (parent id : NodeId) (node : Node) :
    Change → Prop
  | operand {operand : NodeId} : config.simplifyExpressions = true →
    node.data.category = .expression → operand ∈ operandsOf node →
    FoundAt a config parent id node (.simplifyExpr parent id (.operand operand))
  | literal : config.simplifyExpressions = true → node.data.category = .expression →
    node.data.isLiteral = false → 1 < a.sizeBelow id →
    FoundAt a config parent id node
      (.simplifyExpr parent id (.literal (a.plausibleLiteral id node.data)))
  | removal : config.removeStatements = true → node.data.category = .statement →
    a.data? parent = some .block → FoundAt a config parent id node (.removeStatement parent id)
  | inner {inner : NodeId} {above : Node} : config.collapseStatements = true →
    node.data.category = .statement → a.get? parent = some above →
    isStatementPlace above id = true → inner ∈ innerStatementsOf node →
    FoundAt a config parent id node (.collapseStatement parent id inner)
  | declaration : config.removeDeclarations = true → node.data.category = .declaration →
    (∀ returnType name params, node.data = .function returnType name params →
      name ≠ config.entryPoint) →
    FoundAt a config parent id node (.removeDeclaration parent id)

/-- The changes of an expression are those that `FoundAt` lists. -/
theorem foundAt_of_mem_exprChanges (hs : config.simplifyExpressions = true)
    (hcat : node.data.category = .expression) (hc : c ∈ a.exprChanges parent id node) :
    a.FoundAt config parent id node c := by
  have hoperand (hc : c ∈ (operandsOf node).map fun operand =>
      .simplifyExpr parent id (.operand operand)) : a.FoundAt config parent id node c := by
    obtain ⟨operand, hm, rfl⟩ := List.mem_map.1 hc
    exact .operand hs hcat hm
  unfold exprChanges at hc
  split at hc
  · next hif =>
    obtain ⟨hliteral, hsize⟩ := Bool.and_eq_true_iff.1 hif
    rcases List.mem_append.1 hc with hc | hc
    · exact hoperand hc
    · cases List.mem_singleton.1 hc
      exact .literal hs hcat (by simpa using hliteral) (of_decide_eq_true hsize)
  · exact hoperand hc

/-- The changes of a statement are those that `FoundAt` lists. -/
theorem foundAt_of_mem_stmtChanges (hcat : node.data.category = .statement)
    (hc : c ∈ a.stmtChanges config parent id node) : a.FoundAt config parent id node c := by
  unfold stmtChanges at hc
  split at hc
  · cases hc
  next above habove =>
  rcases List.mem_append.1 hc with hc | hc
  · split at hc
    · next hif =>
      obtain ⟨hr, hblock⟩ := Bool.and_eq_true_iff.1 hif
      cases List.mem_singleton.1 hc
      exact .removal hr hcat (by rw [data?_of_get? habove, beq_iff_eq.1 hblock])
    · cases hc
  · split at hc
    · next hif =>
      obtain ⟨hcollapse, hplace⟩ := Bool.and_eq_true_iff.1 hif
      obtain ⟨inner, hm, rfl⟩ := List.mem_map.1 hc
      exact .inner hcollapse hcat habove hplace hm
    · cases hc

/-- The changes of a declaration are those that `FoundAt` lists. -/
theorem foundAt_of_mem_declChanges (hr : config.removeDeclarations = true)
    (hcat : node.data.category = .declaration) (hc : c ∈ declChanges config parent id node) :
    a.FoundAt config parent id node c := by
  unfold declChanges at hc
  split at hc
  · next hf =>
    split at hc
    · cases hc
    · next hne =>
      cases List.mem_singleton.1 hc
      refine .declaration hr hcat fun _ _ _ he => ?_
      cases hf.symm.trans he
      exact hne
  · next hnot =>
    cases List.mem_singleton.1 hc
    exact .declaration hr hcat fun _ _ _ he => absurd he (hnot _ _ _)

/-- A change that is found at a node is one of those that can be found there. -/
theorem exists_foundAt (hc : c ∈ a.changesAt config id) : ∃ node parent,
    a.get? id = some node ∧ node.parent = some parent ∧ a.FoundAt config parent id node c := by
  unfold changesAt at hc
  split at hc
  · next node hn =>
    split at hc
    · cases hc
    next parent hp =>
    refine ⟨node, parent, hn, hp, ?_⟩
    split at hc
    · next hcat =>
      split at hc
      · next hs => exact foundAt_of_mem_exprChanges hs hcat hc
      · cases hc
    · next hcat => exact foundAt_of_mem_stmtChanges hcat hc
    · next hcat =>
      split at hc
      · next hr => exact foundAt_of_mem_declChanges hr hcat hc
      · cases hc
    · cases hc
  · cases hc

/-- What is found at a live node suits the arena, and its precondition holds. -/
theorem WellFormed.found_of_mem_changesAt (h : a.WellFormed) (hl : a.Live id)
    (hc : c ∈ a.changesAt config id) : c.Suits a ∧ c.holds a = true := by
  obtain ⟨node, parent, hn, hp, hfound⟩ := exists_foundAt hc
  have hchild := h.hasChild_of_parent? hl ((parent?_of_get? hn).trans hp)
  have hcategory {k : NodeCategory} (hk : node.data.category = k) : a.category? id = some k := by
    rw [category?_of_data? (data?_of_get? hn), hk]
  cases hfound with
  | operand _ hcat hm =>
    have hm := operandsOf_sublist.subset hm
    rw [← childrenOf_of_get? hn] at hm
    exact ⟨hcategory hcat, Bool.and_eq_true_iff.2 ⟨hchild, h.hasChild_iff.2 ⟨hl, hm⟩⟩⟩
  | literal _ hcat _ hsize =>
    exact ⟨⟨hcategory hcat, children_ne_nil_of_sizeBelow hsize⟩, hchild⟩
  | removal _ _ hblock => exact ⟨⟨_, hblock, rfl⟩, hchild⟩
  | inner _ hcat habove hplace hm =>
    obtain ⟨hm, hinner⟩ := h.category?_of_mem_innerStatementsOf hn hm
    have hslot := beq_iff_eq.1 (Bool.and_eq_true_iff.1 hplace).2
    refine ⟨⟨hcategory hcat, hinner, _, data?_of_get? habove,
      Payload.not_body_of_statement hslot⟩, ?_⟩
    exact Bool.and_eq_true_iff.2 ⟨hchild, h.hasChild_iff.2 ⟨hl, hm⟩⟩
  | declaration _ hcat _ =>
    obtain ⟨i, hi⟩ := List.mem_iff_getElem?.1 (h.hasChild_iff.1 hchild).2
    obtain ⟨data, slot, part, hdata, hslot, hpart, ha⟩ := h.slots hi
    rw [data?_of_get? hn] at hpart
    cases hpart
    rw [SlotKind.eq_declaration ha hcat] at hslot
    exact ⟨⟨data, hdata, Payload.isVariadic_of_declaration hslot⟩, hchild⟩

end Arena

/-- What is found are the changes of the live nodes, with the distances of these from the root. -/
theorem FinderConfig.mem_find_iff {config : FinderConfig} {a : Arena} {o : Opportunity} :
    o ∈ config.find a ↔ ∃ id ∈ a.preorder, ∃ c ∈ a.changesAt config id, ⟨c, a.depth id⟩ = o := by
  simp only [find, List.mem_mergeSort, List.mem_flatMap, Arena.opportunitiesAt,
    List.mem_map]

/-- Whatever is found in a well-formed arena suits it, and its precondition holds there. -/
theorem FinderConfig.found_of_mem_find {config : FinderConfig} {a : Arena} {o : Opportunity}
    (h : a.WellFormed) (ho : o ∈ config.find a) : o.change.Suits a ∧ o.change.holds a = true := by
  obtain ⟨id, hid, c, hc, rfl⟩ := mem_find_iff.1 ho
  exact h.found_of_mem_changesAt (h.mem_preorder_iff.1 hid) hc

end ShaderShrink

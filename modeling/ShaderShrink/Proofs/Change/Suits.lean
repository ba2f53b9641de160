import ShaderShrink.Proofs.Change.Shrink
import ShaderShrink.Proofs.Program.Fits

/-!
# Changes that suit an arena

The precondition of a change (`Change.holds`) is about links alone. What the nodes are is left to
whoever found the change, and `Change.Suits` says what that is: sorts of nodes, and that a literal
is for a node with children. Edits do not touch any of it (`Suits.mono`), so a change that was found
in an arena still suits whatever the arena has become, and its precondition is all that has to be
looked at: where it holds, the change is made and shrinks the arena (`Change.shrinks_of_holds`).
-/

namespace ShaderShrink

/-- Where children come and go there is no expression. -/
theorem Payload.not_isVariadic {data : Payload} (h : data.category = .expression) :
    data.isVariadic = false := by
  cases data <;> first | rfl | cases h

/-- The payload of a literal is one. -/
theorem LiteralValue.isLiteral_toPayload (value : LiteralValue) :
    value.toPayload.isLiteral = true := by
  cases value <;> rfl

/-- Literals are expressions. -/
theorem LiteralValue.category_toPayload (value : LiteralValue) :
    value.toPayload.category = .expression := by
  cases value <;> rfl

namespace Arena

/-- The sort of a node. -/
def category? (a : Arena) (x : NodeId) : Option NodeCategory := (a.data? x).map Payload.category

section
variable {a b : Arena} {x y parent child : Nat} {i : Nat} {category : NodeCategory}

/-- The category of a node is that of its payload. -/
theorem category?_of_data? {data : Payload} (h : a.data? x = some data) :
    a.category? x = some data.category := by
  rw [category?, h]; rfl

/-- No edit changes the category of a node. -/
theorem Evolves.category? (h : a.Evolves b) (hx : a.category? x = some category) :
    b.category? x = some category := by
  obtain ⟨data, hd, rfl⟩ := Option.map_eq_some_iff.1 hx
  exact category?_of_data? (h.data hd)

/-- A place that holds an expression may hold any other. -/
theorem SlotTakes.of_expression (h : a.SlotTakes parent i x)
    (hx : a.category? x = some .expression) (hy : a.category? y = some .expression) :
    a.SlotTakes parent i y := by
  obtain ⟨data, slot, part, hd, hs, hp, ha⟩ := h
  obtain ⟨part', hp', hc⟩ := Option.map_eq_some_iff.1 hy
  rw [category?_of_data? hp, Option.some_inj] at hx
  refine ⟨data, slot, part', hd, hs, hp', ?_⟩
  cases slot with
  | expression => exact decide_eq_true hc
  | declaration | statement => simp_all [SlotKind.accepts]
  | body =>
    obtain rfl : part = .block := of_decide_eq_true ha
    cases hx

/-- A place that holds a statement, and is not for the body of a function, may hold any other. -/
theorem SlotTakes.of_statement (h : a.SlotTakes parent i x)
    (hx : a.category? x = some .statement) (hy : a.category? y = some .statement)
    (hb : ∃ data, a.data? parent = some data ∧ ∀ i, data.slotKind? i ≠ some .body) :
    a.SlotTakes parent i y := by
  obtain ⟨data, slot, part, hd, hs, hp, ha⟩ := h
  obtain ⟨part', hp', hc⟩ := Option.map_eq_some_iff.1 hy
  obtain ⟨data', hd', hb⟩ := hb
  rw [hd] at hd'
  cases hd'
  rw [category?_of_data? hp, Option.some_inj] at hx
  refine ⟨data, slot, part', hd, hs, hp', ?_⟩
  cases slot with
  | statement => exact decide_eq_true hc
  | declaration | expression => simp_all [SlotKind.accepts]
  | body => exact absurd hs (hb i)

/-- The children of an expression are expressions. -/
theorem WellFormed.category?_child (h : a.WellFormed) (hc : child ∈ a.childrenOf x)
    (hx : a.category? x = some .expression) : a.category? child = some .expression := by
  obtain ⟨i, hi⟩ := List.mem_iff_getElem?.1 hc
  obtain ⟨data, slot, part, hd, hs, hp, ha⟩ := h.slots hi
  rw [category?_of_data? hd, Option.some_inj] at hx
  rw [Payload.slot_of_expression hx hs] at ha
  rw [category?_of_data? hp]
  exact congrArg some (of_decide_eq_true ha)

end

end Arena

open Arena

namespace Change

/-- What a change needs of the nodes that it names, apart from the links between them. -/
def Suits (a : Arena) : Change → Prop
  | .simplifyExpr _ target (.operand _) => a.category? target = some .expression
  | .simplifyExpr _ target (.literal _) =>
    a.category? target = some .expression ∧ a.childrenOf target ≠ []
  | .removeStatement parent _ | .removeDeclaration parent _ =>
    ∃ data, a.data? parent = some data ∧ data.isVariadic = true
  | .collapseStatement parent target inner =>
    a.category? target = some .statement ∧ a.category? inner = some .statement ∧
      ∃ data, a.data? parent = some data ∧ ∀ i, data.slotKind? i ≠ some .body

/-- The edit of a change whose precondition holds. -/
def edit (a : Arena) : Change → Edit
  | .simplifyExpr parent target (.operand inner) | .collapseStatement parent target inner =>
    .replaced parent target inner
  | .simplifyExpr parent target (.literal _) => .replaced parent target a.size
  | .removeStatement parent child | .removeDeclaration parent child =>
    .removed parent child ((a.childrenOf parent).idxOf child)

/-- The arena behind a change whose precondition holds. -/
def after (a : Arena) : Change → Arena
  | .simplifyExpr parent target (.operand inner) | .collapseStatement parent target inner =>
    a.graft parent target inner
  | .simplifyExpr parent target (.literal value) =>
    (a.alloc value.toPayload).1.graft parent target a.size
  | .removeStatement parent child | .removeDeclaration parent child => a.prune parent child

/-- The arena in which the place of a change is looked at: a literal has been made by then. -/
def prepared (a : Arena) : Change → Arena
  | .simplifyExpr _ _ (.literal value) => (a.alloc value.toPayload).1
  | _ => a

section
variable {a b : Arena} {c : Change} {parent target inner child : Nat}

/-- Edits leave alone what a change needs apart from the links. -/
theorem Suits.mono (h : a.Evolves b) (hs : c.Suits a) : c.Suits b := by
  have hvariadic {parent : NodeId}
      (hv : ∃ data, a.data? parent = some data ∧ data.isVariadic = true) :
      ∃ data, b.data? parent = some data ∧ data.isVariadic = true := by
    obtain ⟨data, hd, hv⟩ := hv
    exact ⟨data, h.data hd, hv⟩
  match c, hs with
  | .simplifyExpr _ target (.operand _), hs => exact h.category? hs
  | .simplifyExpr _ target (.literal _), ⟨ht, hne⟩ =>
    obtain ⟨data, hd, hc⟩ := Option.map_eq_some_iff.1 ht
    refine ⟨h.category? ht, fun he => hne ?_⟩
    rw [← List.length_eq_zero_iff, ← h.length hd (Payload.not_isVariadic hc), he]
    rfl
  | .removeStatement _ _, hs => exact hvariadic hs
  | .removeDeclaration _ _, hs => exact hvariadic hs
  | .collapseStatement _ _ _, ⟨ht, hi, data, hd, hb⟩ =>
    exact ⟨h.category? ht, h.category? hi, data, h.data hd, hb⟩

/-- A replacement that fits is made. -/
theorem replace_eq (h : a.WellFormed) (f : a.Fitting parent target inner) :
    replace a parent target inner =
      (.ok (.replaced parent target inner), a.graft parent target inner) := by
  rw [replace, f.replaceChild_eq h]

/-- A child takes the place of its parent if the place is of its sort. -/
theorem hoist_spec (h : a.WellFormed) (ht : a.hasChild parent target = true)
    (hi : a.hasChild target inner = true)
    (hs : a.SlotTakes parent ((a.childrenOf parent).idxOf target) inner) :
    replace a parent target inner =
        (.ok (.replaced parent target inner), a.graft parent target inner) ∧
      a.Shrinks (.replaced parent target inner) a (a.graft parent target inner) := by
  obtain ⟨hp, ht⟩ := h.hasChild_iff.1 ht
  obtain ⟨-, hi⟩ := h.hasChild_iff.1 hi
  have f : a.Fitting parent target inner := ⟨hp, ht, hs, .inl hi⟩
  exact ⟨replace_eq h f, .hoist f hi⟩

/-- A new literal takes the place of an expression with operands. -/
theorem literal_spec (h : a.WellFormed) (value : LiteralValue)
    (hh : a.hasChild parent target = true) (hs : a.category? target = some .expression)
    (hne : a.childrenOf target ≠ []) :
    replace (a.alloc value.toPayload).1 parent target a.size =
        (.ok (.replaced parent target a.size),
          (a.alloc value.toPayload).1.graft parent target a.size) ∧
      a.Shrinks (.replaced parent target a.size) (a.alloc value.toPayload).1
        ((a.alloc value.toPayload).1.graft parent target a.size) := by
  obtain ⟨hp, ht⟩ := h.hasChild_iff.1 hh
  have hl := value.isLiteral_toPayload
  have ha := h.alloc (Payload.admits_of_isLiteral hl)
  have hlt : target < a.size := h.child_lt ht
  have ht' : target ∈ (a.alloc value.toPayload).1.childrenOf parent := by rwa [childrenOf_alloc]
  have hs' : (a.alloc value.toPayload).1.category? target = some .expression := by
    rw [category?, data?_alloc_of_lt hlt]
    exact hs
  have hnew : (a.alloc value.toPayload).1.category? a.size = some .expression := by
    rw [category?_of_data? (data?_of_get? get?_alloc_size)]
    exact congrArg some value.category_toPayload
  have f : (a.alloc value.toPayload).1.Fitting parent target a.size :=
    ⟨live_alloc.2 hp, ht', (ha.slots (List.getElem?_idxOf ht')).of_expression hs' hnew,
      .inr ⟨h.spare_alloc, hlt⟩⟩
  exact ⟨replace_eq ha f, .literal hl f hne⟩

/-- A child that may go is removed. -/
theorem removal_spec (h : a.WellFormed) (hh : a.hasChild parent child = true)
    (hv : ∃ data, a.data? parent = some data ∧ data.isVariadic = true) :
    remove a parent child = (.ok (.removed parent child ((a.childrenOf parent).idxOf child)),
        a.prune parent child) ∧
      a.Shrinks (.removed parent child ((a.childrenOf parent).idxOf child)) a
        (a.prune parent child) := by
  obtain ⟨hp, hc⟩ := h.hasChild_iff.1 hh
  refine ⟨?_, .removal hp hc hv⟩
  rw [remove, h.removeChild_eq hp hc hv]

/-- A change that suits a well-formed arena and whose precondition holds is made, and it shrinks the
arena. -/
theorem shrinks_of_holds (h : a.WellFormed) (hs : c.Suits a) (hh : c.holds a = true) :
    c.apply a = (.ok (c.edit a), c.after a) ∧
      a.Shrinks (c.edit a) (c.prepared a) (c.after a) := by
  rw [apply.eq_def, if_pos hh]
  match c, hs with
  | .simplifyExpr parent target (.operand inner), hs =>
    obtain ⟨ht, hi⟩ := Bool.and_eq_true_iff.1 hh
    have hm := (h.hasChild_iff.1 ht).2
    have hinner := h.category?_child (h.hasChild_iff.1 hi).2 hs
    exact hoist_spec h ht hi ((h.slots (List.getElem?_idxOf hm)).of_expression hs hinner)
  | .simplifyExpr parent target (.literal value), ⟨hs, hne⟩ =>
    exact literal_spec h value hh hs hne
  | .removeStatement parent child, hv => exact removal_spec h hh hv
  | .removeDeclaration parent child, hv => exact removal_spec h hh hv
  | .collapseStatement parent target inner, ⟨hs, hinner, hb⟩ =>
    obtain ⟨ht, hi⟩ := Bool.and_eq_true_iff.1 hh
    have hm := (h.hasChild_iff.1 ht).2
    exact hoist_spec h ht hi ((h.slots (List.getElem?_idxOf hm)).of_statement hs hinner hb)

end

end Change

end ShaderShrink

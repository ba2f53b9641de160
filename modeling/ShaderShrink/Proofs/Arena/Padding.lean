import ShaderShrink.Proofs.Arena.Graft

/-!
# Arenas with literals left behind

A literal that was tried and rejected stays in the arena as an unattached leaf. `Arena.Padded` says
that an arena is another one with such leaves behind it. They make no difference: every number has
the same children in the two arenas (`Padded.childrenOf`), the same nodes are live
(`Padded.live_iff`), and an edit that is accepted in an arena is accepted with a leaf behind it and
does the same (`replaceChild_alloc`, `insertChild_alloc`).
-/

namespace ShaderShrink.Arena

/-- The arena is `b` with unattached literals behind it. -/
inductive Padded (b : Arena) : Arena → Prop
  | refl : b.Padded b
  | alloc {a : Arena} {data : Payload} :
    b.Padded a → data.isLiteral = true → b.Padded (a.alloc data).1

section
variable {a b : Arena} {x y : Nat} {data : Payload}

/-- Where two arenas have the same children, the same nodes are below each other. -/
theorem below_congr (h : ∀ z, a.childrenOf z = b.childrenOf z) : a.Below x y ↔ b.Below x y := by
  constructor <;> intro hxy <;> induction hxy with
  | self => exact .self
  | child _ hc ih => exact ih.child (h _ ▸ hc)

/-- What fills a place still does when a node has been made. -/
theorem SlotTakes.alloc {i : Nat} (h : a.SlotTakes x i y) : (a.alloc data).1.SlotTakes x i y := by
  obtain ⟨data', slot, part, hd, hs, hp, ha⟩ := h
  refine ⟨data', slot, part, ?_, hs, ?_, ha⟩
  · rw [data?_alloc_of_lt (lt_size_of_data? hd), hd]
  · rw [data?_alloc_of_lt (lt_size_of_data? hp), hp]

/-- A node without children that is made in a well-formed arena leaves it well formed. -/
theorem WellFormed.alloc (h : a.WellFormed) (hd : data.admits 0 = true) :
    (a.alloc data).1.WellFormed where
  root_data := by rw [data?_alloc_of_lt h.root_lt, h.root_data]
  root_parent := by rw [parent?_alloc, h.root_parent]
  lt_child hc := h.lt_child (childrenOf_alloc ▸ hc)
  child_lt hc := by
    rw [size_alloc]
    exact Nat.lt_succ_of_lt (h.child_lt (childrenOf_alloc ▸ hc))
  nodup x := by rw [childrenOf_alloc]; exact h.nodup x
  mem_of_parent hp := by
    rw [parent?_alloc] at hp
    rw [childrenOf_alloc]
    exact h.mem_of_parent hp
  parent_of_live hp hc := by
    rw [parent?_alloc]
    exact h.parent_of_live ((below_congr fun _ => childrenOf_alloc).1 hp) (childrenOf_alloc ▸ hc)
  admits {x data'} hx := by
    rw [childrenOf_alloc]
    by_cases he : x = a.size
    · rw [he, data?_of_get? get?_alloc_size] at hx
      injection hx with hx
      rw [he, childrenOf_of_size_le (Nat.le_refl _), ← hx]
      exact hd
    · rw [data?, get?_alloc, if_neg he] at hx
      exact h.admits hx
  slots {x c i} hc := by
    rw [childrenOf_alloc] at hc
    exact (h.slots hc).alloc

/-- What was just made is unattached. -/
theorem WellFormed.spare_alloc (h : a.WellFormed) : (a.alloc data).1.Spare a.size where
  lt_size := by rw [size_alloc]; exact Nat.lt_succ_self _
  no_children := by rw [childrenOf_alloc, childrenOf_of_size_le (Nat.le_refl _)]
  no_parent := by rw [parent?_alloc, parent?_of_size_le (Nat.le_refl _)]
  not_listed x hx := Nat.lt_irrefl _ (h.child_lt (childrenOf_alloc ▸ hx))

/-! ## Edits beside a node that was made -/

/-- A node is attached still when another one is made. -/
theorem attachedWithin_alloc {n m : Nat} (h : a.attachedWithin n x = true) (hm : n ≤ m) :
    (a.alloc data).1.attachedWithin m x = true := by
  induction n generalizing m x with
  | zero => cases h
  | succ n ih =>
    obtain ⟨m, rfl⟩ := Nat.exists_eq_add_of_lt hm
    rw [attachedWithin, parent?_alloc]
    rw [attachedWithin] at h
    split at h
    · exact h
    · rw [childrenOf_alloc]
      simp only [Bool.or_eq_true, Bool.and_eq_true] at h ⊢
      exact h.imp_right fun hp => ⟨hp.1, ih hp.2 (by omega)⟩

/-- A child is one still when a node is made. -/
theorem hasChild_alloc (h : a.hasChild x y = true) : (a.alloc data).1.hasChild x y = true := by
  obtain ⟨hp, hm, hl⟩ := hasChild_iff.1 h
  refine hasChild_iff.2 ⟨by rw [parent?_alloc, hp], by rwa [childrenOf_alloc], ?_⟩
  exact attachedWithin_alloc hl (by rw [size_alloc]; omega)

section
variable {parent target replacement child : NodeId} {index : Nat}

/-- A replacement is not refused because a node was made. -/
theorem MayReplace.alloc (m : a.MayReplace parent target replacement) :
    (a.alloc data).1.MayReplace parent target replacement where
  lt_size := by
    rw [size_alloc]
    exact Nat.lt_succ_of_lt m.lt_size
  child := hasChild_alloc m.child
  slot := by
    rw [childrenOf_alloc]
    exact m.slot.alloc
  ne_target := m.ne_target
  ne_root := m.ne_root
  owner := by
    rw [parent?_alloc]
    exact m.owner
  linked c hc := by
    rw [childrenOf_alloc] at hc
    rw [parent?_alloc]
    exact m.linked c hc

/-- An insertion is not refused because a node was made. -/
theorem MayInsert.alloc (m : a.MayInsert parent index child) :
    (a.alloc data).1.MayInsert parent index child where
  variadic := by
    obtain ⟨data', hd, hv⟩ := m.variadic
    exact ⟨data', by rw [data?_alloc_of_lt (lt_size_of_data? hd), hd], hv⟩
  index_le := by
    rw [childrenOf_alloc]
    exact m.index_le
  slot := m.slot.alloc
  no_parent := by rw [parent?_alloc, m.no_parent]
  ne_root := m.ne_root
  linked c hc := by
    rw [childrenOf_alloc] at hc
    rw [parent?_alloc]
    exact m.linked c hc

/-- Putting a node in the place of another one changes the same lists when a node was made
before. -/
theorem childrenOf_graft_alloc (hp : parent < a.size) :
    ((a.alloc data).1.graft parent target replacement).childrenOf x =
      (a.graft parent target replacement).childrenOf x := by
  rw [childrenOf_graft (by rw [size_alloc]; exact Nat.lt_succ_of_lt hp), childrenOf_graft hp,
    childrenOf_alloc, childrenOf_alloc]

/-- A replacement goes the same way if a node was made before. -/
theorem replaceChild_alloc (h : a.replaceChild parent target replacement = .ok b) :
    (a.alloc data).1.replaceChild parent target replacement = .ok (b.alloc data).1 := by
  obtain ⟨m, rfl⟩ := replaceChild_eq_ok_iff.1 h
  refine replaceChild_eq_ok_iff.2 ⟨m.alloc, ext_fields (fun x => ?_) (fun x => ?_) fun x => ?_⟩
  · rw [data?_alloc, data?_adoptChildren, data?_adoptChildren, data?_graft, data?_graft,
      data?_alloc, size_adoptChildren, size_graft]
  · rw [childrenOf_alloc, childrenOf_adoptChildren, childrenOf_adoptChildren,
      childrenOf_graft_alloc m.parent_lt_size]
  · rw [parent?_alloc, m.parent?_adoptChildren_graft, m.alloc.parent?_adoptChildren_graft,
      childrenOf_graft_alloc m.parent_lt_size, parent?_alloc]

/-- An insertion goes the same way if a node was made before. -/
theorem insertChild_alloc (h : a.insertChild parent index child = .ok b) :
    (a.alloc data).1.insertChild parent index child = .ok (b.alloc data).1 := by
  obtain ⟨m, rfl⟩ := insertChild_eq_ok_iff.1 h
  refine insertChild_eq_ok_iff.2 ⟨m.alloc, ext_fields (fun x => ?_) (fun x => ?_) fun x => ?_⟩
  · rw [data?_alloc, data?_plant, data?_plant, data?_alloc, size_plant]
  · rw [childrenOf_alloc, childrenOf_plant m.parent_lt_size,
      childrenOf_plant m.alloc.parent_lt_size, childrenOf_alloc, childrenOf_alloc]
  · rw [parent?_alloc, parent?_plant m.child_lt_size, parent?_plant m.alloc.child_lt_size,
      parent?_alloc]

end

namespace Padded

/-- An arena with padding has more nodes, not fewer. -/
theorem size_le (h : b.Padded a) : b.size ≤ a.size := by
  induction h with
  | refl => exact Nat.le_refl _
  | alloc _ _ ih => rw [size_alloc]; omega

/-- Padding has no children and is nobody's child. -/
theorem childrenOf (h : b.Padded a) (x : NodeId) : a.childrenOf x = b.childrenOf x := by
  induction h with
  | refl => rfl
  | alloc _ _ ih => rw [childrenOf_alloc, ih]

/-- The nodes in front of the padding have their payloads. -/
theorem data? (h : b.Padded a) (hx : x < b.size) : a.data? x = b.data? x := by
  induction h with
  | refl => rfl
  | alloc h _ ih => rw [data?_alloc_of_lt (Nat.lt_of_lt_of_le hx h.size_le), ih]

/-- Padding keeps an arena well formed. -/
theorem wellFormed (h : b.Padded a) (hb : b.WellFormed) : a.WellFormed := by
  induction h with
  | refl => exact hb
  | alloc _ hd ih => exact ih.alloc (Payload.admits_of_isLiteral hd)

/-- The same nodes are live with padding as without. -/
theorem live_iff (h : b.Padded a) : a.Live x ↔ b.Live x := below_congr h.childrenOf

end Padded

end

end ShaderShrink.Arena

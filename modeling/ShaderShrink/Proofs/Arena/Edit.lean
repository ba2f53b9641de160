import ShaderShrink.Proofs.Arena.Lookup

/-!
# When an edit is accepted, and what it leaves

`Arena.graft` is the arena that is left when a child is replaced, `Arena.prune` the one that is left
when a child is taken out of a list, and `Arena.plant` the one that is left when a child is put into
a list. `Arena.replaceChild_eq_ok_iff`, `Arena.removeChild_eq_ok_iff` and
`Arena.insertChild_eq_ok_iff` say when the edits are accepted and that they leave these arenas; the
lemmas on `data?`, `childrenOf` and `parent?` say what is in them, so that nothing else unfolds the
edits.
-/

namespace ShaderShrink.Arena

/-- The arena in which `replacement` has the place that `target` had under `parent`. -/
def graft (a : Arena) (parent target replacement : NodeId) : Arena :=
  let swapped := a.modify parent fun node =>
    { node with children := node.children.set (node.children.idxOf target) replacement }
  (swapped.setParent target none).setParent replacement (some parent)

/-- The arena in which `child` is no longer among the children of `parent`. -/
def prune (a : Arena) (parent child : NodeId) : Arena :=
  (a.modify parent fun node => { node with children := node.children.erase child }).setParent
    child none

/-- The arena in which `child` is among the children of `parent`, at the place `index`. -/
def plant (a : Arena) (parent : NodeId) (index : Nat) (child : NodeId) : Arena :=
  (a.modify parent fun node =>
    { node with children := node.children.insertIdx index child }).setParent child (some parent)

/-- The place `index` among the children of `parent` may hold `candidate`. -/
def SlotTakes (a : Arena) (parent : NodeId) (index : Nat) (candidate : NodeId) : Prop :=
  ∃ data slot part, a.data? parent = some data ∧ data.slotKind? index = some slot ∧
    a.data? candidate = some part ∧ slot.accepts part = true

section
variable {a a' : Arena} {id x y parent target replacement child : NodeId} {index : Nat}

/-! ## Changed nodes -/

/-- A new parent link leaves the payloads alone. -/
theorem data?_setParent (p : Option NodeId) : (a.setParent id p).data? x = a.data? x := by
  rw [data?, get?_setParent]
  split
  · rw [Option.map_map]; rfl
  · rfl

/-- A new parent link leaves the lists of children alone. -/
theorem childrenOf_setParent (p : Option NodeId) :
    (a.setParent id p).childrenOf x = a.childrenOf x := by
  rw [childrenOf, get?_setParent, childrenOf]
  split
  · cases a.get? x <;> rfl
  · rfl

/-- A new parent link is that of one node only. -/
theorem parent?_setParent (p : Option NodeId) (h : id < a.size) :
    (a.setParent id p).parent? x = if x = id then p else a.parent? x := by
  rw [parent?, get?_setParent, parent?]
  by_cases hx : x = id
  · subst hx
    obtain ⟨node, hn⟩ := lt_size_iff.1 h
    simp [hn]
  · rw [if_neg (Ne.symm hx), if_neg hx]

/-- New children of a node leave the payloads alone. -/
theorem data?_modify {f : List NodeId → List NodeId} :
    (a.modify id fun node => { node with children := f node.children }).data? x = a.data? x := by
  rw [data?, get?_modify]
  split
  · rw [Option.map_map]; rfl
  · rfl

/-- New children of a node leave those of the others alone. -/
theorem childrenOf_modify {f : List NodeId → List NodeId} (h : id < a.size) :
    (a.modify id fun node => { node with children := f node.children }).childrenOf x =
      if x = id then f (a.childrenOf id) else a.childrenOf x := by
  rw [childrenOf, get?_modify, childrenOf]
  by_cases hx : x = id
  · subst hx
    obtain ⟨node, hn⟩ := lt_size_iff.1 h
    simp [hn]
  · rw [if_neg (Ne.symm hx), if_neg hx, childrenOf]

/-- New children of a node leave the parent links alone. -/
theorem parent?_modify {f : List NodeId → List NodeId} :
    (a.modify id fun node => { node with children := f node.children }).parent? x =
      a.parent? x := by
  rw [parent?, get?_modify, parent?]
  split
  · cases a.get? x <;> rfl
  · rfl

/-- Arenas with the same payloads, children and parents are the same. -/
theorem ext_fields {b : Arena} (hd : ∀ x, a.data? x = b.data? x)
    (hc : ∀ x, a.childrenOf x = b.childrenOf x) (hp : ∀ x, a.parent? x = b.parent? x) : a = b := by
  refine ext_get? fun x => Option.ext fun node => ?_
  rw [get?_eq_some_iff, get?_eq_some_iff, hd, hc, hp]

/-! ## Replacement -/

@[simp] theorem size_graft : (a.graft parent target replacement).size = a.size := by simp [graft]

/-- Putting a node in the place of another one leaves the payloads alone. -/
@[simp] theorem data?_graft : (a.graft parent target replacement).data? x = a.data? x := by
  rw [graft, data?_setParent, data?_setParent,
    data?_modify (f := fun children => children.set (children.idxOf target) replacement)]

/-- Putting a node in the place of another one changes one entry in one list of children. -/
theorem childrenOf_graft (h : parent < a.size) :
    (a.graft parent target replacement).childrenOf x =
      if x = parent then
        (a.childrenOf parent).set ((a.childrenOf parent).idxOf target) replacement
      else a.childrenOf x := by
  rw [graft, childrenOf_setParent, childrenOf_setParent,
    childrenOf_modify (f := fun children => children.set (children.idxOf target) replacement) h]

/-- The node that takes the place has the parent; the one that had it has none any more. -/
theorem parent?_graft (ht : target < a.size) (hr : replacement < a.size) :
    (a.graft parent target replacement).parent? x =
      if x = replacement then some parent else if x = target then none else a.parent? x := by
  rw [graft, parent?_setParent _ (by simpa using hr), parent?_setParent _ (by simpa using ht),
    parent?_modify (f := fun children => children.set (children.idxOf target) replacement)]

/-- The check of a place succeeds where the place takes the node. -/
theorem requireSlot_eq_ok_iff {u : Unit} :
    a.requireSlot parent index child = .ok u ↔ a.SlotTakes parent index child := by
  simp only [requireSlot, Except.bind_eq_ok_iff, find_eq_ok_iff, SlotTakes]
  constructor
  · rintro ⟨node, hn, part, hp, h⟩
    split at h
    · cases h
    · next slot hs =>
      rw [Except.guard_eq_ok_unit_iff] at h
      exact ⟨_, slot, _, data?_of_get? hn, hs, data?_of_get? hp, by simpa using h⟩
  · rintro ⟨data, slot, part, hd, hs, hp, h⟩
    obtain ⟨node, hn, rfl⟩ := Option.map_eq_some_iff.1 hd
    obtain ⟨partNode, hpn, rfl⟩ := Option.map_eq_some_iff.1 hp
    refine ⟨node, hn, partNode, hpn, ?_⟩
    simp only [hs, h]
    rfl

/-- The check of the children of a node succeeds if each of them but the one that is spared says
that the node is its parent. -/
theorem requireChildren_eq_ok_iff {spared : Option NodeId} {u : Unit} :
    a.requireChildren id spared = .ok u ↔
      ∀ c ∈ a.childrenOf id, a.parent? c = some id ∨ some c = spared := by
  unfold requireChildren
  split
  · next c hc =>
    refine ⟨nofun, ?_⟩
    intro h
    have hb := List.find?_some hc
    have hlinked := h c (List.mem_of_find?_eq_some hc)
    simp_all
  · next h =>
    refine ⟨?_, fun _ => rfl⟩
    intro _ c hc
    have hlinked := List.find?_eq_none.1 h c hc
    simp only [Bool.and_eq_true, bne_iff_ne, ne_eq, not_and_or, not_not] at hlinked
    exact hlinked

/-- A child is one that the parent lists and that says so, where the parent is live. -/
theorem hasChild_iff : a.hasChild parent child = true ↔
    a.parent? child = some parent ∧ child ∈ a.childrenOf parent ∧ a.isLive parent = true := by
  simp [hasChild, and_assoc]

/-- What a replacement asks of the arena. -/
structure MayReplace (a : Arena) (parent target replacement : NodeId) : Prop where
  lt_size : replacement < a.size
  child : a.hasChild parent target = true
  slot : a.SlotTakes parent ((a.childrenOf parent).idxOf target) replacement
  ne_target : replacement ≠ target
  ne_root : replacement ≠ root
  owner : a.parent? replacement = none ∨ a.parent? replacement = some target
  linked : ∀ c ∈ a.childrenOf replacement, a.parent? c = some replacement ∨ c = target

namespace MayReplace

variable (m : a.MayReplace parent target replacement)
include m

/-- What is replaced is among the children of the parent. -/
theorem mem : target ∈ a.childrenOf parent := (hasChild_iff.1 m.child).2.1

/-- What is replaced says that it is a child of the parent. -/
theorem parent?_target : a.parent? target = some parent := (hasChild_iff.1 m.child).1

/-- There is a node to be replaced. -/
theorem target_lt_size : target < a.size := lt_size_of_parent? m.parent?_target

/-- There is a node with the place. -/
theorem parent_lt_size : parent < a.size := lt_size_of_mem_childrenOf m.mem

/-- There are nodes with the numbers that the replacement lists. -/
theorem linked_lt_size {c : NodeId} (hc : c ∈ a.childrenOf replacement) : c < a.size := by
  rcases m.linked c hc with hp | rfl
  · exact lt_size_of_parent? hp
  · exact m.target_lt_size

end MayReplace

/-- A replacement is accepted exactly if the arena is as it asks, and leaves the graft, in which the
replacement is the parent of its children. -/
theorem replaceChild_eq_ok_iff : a.replaceChild parent target replacement = .ok a' ↔
    a.MayReplace parent target replacement ∧
      a' = (a.graft parent target replacement).adoptChildren replacement := by
  simp only [replaceChild, Except.bind_eq_ok_iff, Except.guard_eq_ok_iff, find_eq_ok_iff,
    requireSlot_eq_ok_iff, requireChildren_eq_ok_iff, Option.some_inj]
  -- the place is looked up before the list is changed
  have hgraft {node : Node} (hn : a.get? parent = some node) :
      (a.modify parent fun n =>
        { n with children := n.children.set (node.children.idxOf target) replacement }) =
      a.modify parent fun n =>
        { n with children := n.children.set (n.children.idxOf target) replacement } :=
    modify_congr hn rfl
  constructor
  · rintro ⟨node, hn, tn, ht, rn, hr, hc, -, hs, hne, ho, -, hl, he⟩
    rw [hgraft hn] at he
    rw [← childrenOf_of_get? hn] at hs
    rw [← parent?_of_get? hr] at ho
    have ⟨hne₁, hne₂⟩ := not_or.1 hne
    refine ⟨⟨lt_size_of_get? hr, by simpa using hc, hs, hne₁, hne₂, ?_, hl⟩, ?_⟩
    · by_cases h : a.parent? replacement = none
      · exact .inl h
      · exact .inr (not_not.1 fun h' => ho ⟨h, h'⟩)
    · injection he with he
      exact he.symm
  · rintro ⟨⟨hlt, hc, hs, hne₁, hne₂, ho, hl⟩, rfl⟩
    obtain ⟨hp, hm, -⟩ := hasChild_iff.1 hc
    obtain ⟨node, hn⟩ := lt_size_iff.1 (lt_size_of_mem_childrenOf hm)
    obtain ⟨tn, ht⟩ := lt_size_iff.1 (lt_size_of_parent? hp)
    obtain ⟨rn, hr⟩ := lt_size_iff.1 hlt
    rw [parent?_of_get? hr] at ho
    rw [childrenOf_of_get? hn] at hs
    refine ⟨node, hn, tn, ht, rn, hr, by simpa using hc, (), hs, not_or.2 ⟨hne₁, hne₂⟩, ?_, (), hl,
      ?_⟩
    · rintro ⟨h₁, h₂⟩
      exact ho.elim h₁ h₂
    · rw [hgraft hn]
      rfl

/-! ## Removal and insertion -/

@[simp] theorem size_prune : (a.prune parent child).size = a.size := by simp [prune]

/-- Taking a child out of a list leaves the payloads alone. -/
@[simp] theorem data?_prune : (a.prune parent child).data? x = a.data? x := by
  rw [prune, data?_setParent, data?_modify (f := fun children => children.erase child)]

/-- Taking a child out of a list changes that list only. -/
theorem childrenOf_prune (h : parent < a.size) : (a.prune parent child).childrenOf x =
    if x = parent then (a.childrenOf parent).erase child else a.childrenOf x := by
  rw [prune, childrenOf_setParent, childrenOf_modify (f := fun children => children.erase child) h]

/-- The child that was taken out has no parent any more. -/
theorem parent?_prune (h : child < a.size) :
    (a.prune parent child).parent? x = if x = child then none else a.parent? x := by
  rw [prune, parent?_setParent _ (by simpa using h),
    parent?_modify (f := fun children => children.erase child)]

/-- A removal is accepted exactly if the child is one of a node whose children may go, and leaves
the pruned arena and the place of the child. -/
theorem removeChild_eq_ok_iff : a.removeChild parent child = .ok (a', index) ↔
    (∃ data, a.data? parent = some data ∧ data.isVariadic = true) ∧
      a.hasChild parent child = true ∧
      a' = a.prune parent child ∧ index = (a.childrenOf parent).idxOf child := by
  simp only [removeChild, Except.bind_eq_ok_iff, Except.guard_eq_ok_iff, find_eq_ok_iff,
    Bool.not_eq_true', Bool.not_eq_false]
  have hprune {node : Node} (hn : a.get? parent = some node) :
      (a.modify parent fun n =>
        { n with children := n.children.eraseIdx (node.children.idxOf child) }) =
      a.modify parent fun n => { n with children := n.children.erase child } :=
    modify_congr hn (by rw [List.erase_eq_eraseIdx_of_idxOf rfl])
  constructor
  · rintro ⟨node, hn, hv, hc, he⟩
    rw [hprune hn] at he
    injection he with he
    injection he with he₁ he₂
    exact ⟨⟨_, data?_of_get? hn, hv⟩, hc, he₁.symm, by rw [childrenOf_of_get? hn, he₂]⟩
  · rintro ⟨⟨data, hd, hv⟩, hc, rfl, rfl⟩
    obtain ⟨node, hn, rfl⟩ := Option.map_eq_some_iff.1 hd
    refine ⟨node, hn, hv, hc, ?_⟩
    rw [hprune hn, childrenOf_of_get? hn]
    rfl

@[simp] theorem size_plant : (a.plant parent index child).size = a.size := by simp [plant]

/-- Putting a child into a list leaves the payloads alone. -/
@[simp] theorem data?_plant : (a.plant parent index child).data? x = a.data? x := by
  rw [plant, data?_setParent, data?_modify (f := fun children => children.insertIdx index child)]

/-- Putting a child into a list changes that list only. -/
theorem childrenOf_plant (h : parent < a.size) : (a.plant parent index child).childrenOf x =
    if x = parent then (a.childrenOf parent).insertIdx index child else a.childrenOf x := by
  rw [plant, childrenOf_setParent,
    childrenOf_modify (f := fun children => children.insertIdx index child) h]

/-- The child that was put into a list has the parent. -/
theorem parent?_plant (h : child < a.size) : (a.plant parent index child).parent? x =
    if x = child then some parent else a.parent? x := by
  rw [plant, parent?_setParent _ (by simpa using h),
    parent?_modify (f := fun children => children.insertIdx index child)]

/-- What an insertion asks of the arena. -/
structure MayInsert (a : Arena) (parent : NodeId) (index : Nat) (child : NodeId) : Prop where
  variadic : ∃ data, a.data? parent = some data ∧ data.isVariadic = true
  index_le : index ≤ (a.childrenOf parent).length
  slot : a.SlotTakes parent index child
  no_parent : a.parent? child = none
  ne_root : child ≠ root
  linked : ∀ c ∈ a.childrenOf child, a.parent? c = some child

namespace MayInsert

variable (m : a.MayInsert parent index child)
include m

/-- There is a node with the list. -/
theorem parent_lt_size : parent < a.size := by
  obtain ⟨_, hd, -⟩ := m.variadic
  exact lt_size_of_data? hd

/-- There is a node to be put into the list. -/
theorem child_lt_size : child < a.size := by
  obtain ⟨_, _, _, -, -, hd, -⟩ := m.slot
  exact lt_size_of_data? hd

end MayInsert

/-- An insertion is accepted exactly if the arena is as it asks. -/
theorem insertChild_eq_ok_iff : a.insertChild parent index child = .ok a' ↔
    a.MayInsert parent index child ∧ a' = a.plant parent index child := by
  simp only [insertChild, Except.bind_eq_ok_iff, Except.guard_eq_ok_iff, find_eq_ok_iff,
    requireSlot_eq_ok_iff, requireChildren_eq_ok_iff, Bool.not_eq_true', Bool.not_eq_false, not_or,
    Nat.not_lt, gt_iff_lt, Option.not_isSome_iff_eq_none, reduceCtorEq, or_false]
  constructor
  · rintro ⟨node, hn, hv, hi, -, hs, ⟨hp, hr⟩, -, hl, he⟩
    injection he with he
    exact ⟨⟨⟨_, data?_of_get? hn, hv⟩, by rwa [childrenOf_of_get? hn], hs, hp, hr, hl⟩, he.symm⟩
  · rintro ⟨⟨⟨data, hd, hv⟩, hi, hs, hp, hr, hl⟩, rfl⟩
    obtain ⟨node, hn, rfl⟩ := Option.map_eq_some_iff.1 hd
    rw [childrenOf_of_get? hn] at hi
    exact ⟨node, hn, hv, hi, (), hs, ⟨hp, hr⟩, (), hl, rfl⟩

end

end ShaderShrink.Arena

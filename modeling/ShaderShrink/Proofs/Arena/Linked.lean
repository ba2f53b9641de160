import ShaderShrink.Proofs.Arena.Layout
import ShaderShrink.Proofs.Arena.Padding
import ShaderShrink.Proofs.Arena.Prune

/-!
# Arenas under arbitrary edits

`Arena.WellFormed` asks that numbers grow from a node to its children, which changes of programs
keep and edits in general do not. `Arena.Linked` is what edits in general keep. Its main clause is
about *placed* nodes, the root and the nodes with a parent: their child lists are answered by parent
links. The other nodes may list what has been attached elsewhere, and they may be below themselves.
Live nodes are placed (`Linked.placed`), so the live nodes of a linked arena form a tree
(`Linked.rooted`).

An accepted replacement or removal keeps an arena linked (`Linked.replaceChild`,
`Linked.removeChild`), and so does an insertion of a node that the list does not have already
(`Linked.insertChild`).
-/

namespace ShaderShrink.Arena

/-- The node is the root, or has a parent. -/
def Placed (a : Arena) (x : NodeId) : Prop := x = root ∨ ∃ p, a.parent? x = some p

/-- Parent links are answered by child lists, and the child lists of placed nodes by parent
links. -/
structure Linked (a : Arena) : Prop where
  root_lt : root < a.size
  root_parent : a.parent? root = none
  child_lt {x c : Nat} : c ∈ a.childrenOf x → c < a.size
  nodup (x : NodeId) : (a.childrenOf x).Nodup
  mem_of_parent {p c : NodeId} : a.parent? c = some p → c ∈ a.childrenOf p
  parent_of_placed {p c : NodeId} : a.Placed p → c ∈ a.childrenOf p → a.parent? c = some p
  slots {x c i : Nat} : (a.childrenOf x)[i]? = some c → a.SlotTakes x i c

section
variable {a b : Arena} {x y c parent target replacement child : Nat} {index : Nat}
  {data : Payload}

/-- The arena of a program is linked. -/
theorem linked_ofProgram (p : Program) : (ofProgram p).Linked where
  root_lt := (wellFormed_ofProgram p).root_lt
  root_parent := (wellFormed_ofProgram p).root_parent
  child_lt hc := (wellFormed_ofProgram p).child_lt hc
  nodup := (wellFormed_ofProgram p).nodup
  mem_of_parent hp := (wellFormed_ofProgram p).mem_of_parent hp
  parent_of_placed _ hc := (settled_ofProgram (lt_size_of_mem_childrenOf hc)).parent_of_mem hc
  slots hc := (wellFormed_ofProgram p).slots hc

namespace Linked

variable (h : a.Linked)
include h

/-- Live nodes are placed. -/
theorem placed (hx : a.Live x) : a.Placed x := by
  induction hx with
  | self => exact .inl rfl
  | child _ hc ih => exact .inr ⟨_, h.parent_of_placed ih hc⟩

/-- The live nodes of a linked arena form a tree. -/
theorem rooted : a.Rooted where
  root_lt := h.root_lt
  root_parent := h.root_parent
  child_lt _ hc := h.child_lt hc
  nodup _ := h.nodup _
  parent_of_live hp hc := h.parent_of_placed (h.placed hp) hc

/-- A node that is made keeps an arena linked. -/
theorem alloc : (a.alloc data).1.Linked where
  root_lt := by
    rw [size_alloc]
    exact Nat.lt_succ_of_lt h.root_lt
  root_parent := by rw [parent?_alloc, h.root_parent]
  child_lt hc := by
    rw [size_alloc]
    exact Nat.lt_succ_of_lt (h.child_lt (childrenOf_alloc ▸ hc))
  nodup x := by rw [childrenOf_alloc]; exact h.nodup x
  mem_of_parent hp := by
    rw [parent?_alloc] at hp
    rw [childrenOf_alloc]
    exact h.mem_of_parent hp
  parent_of_placed hp hc := by
    simp only [Placed, parent?_alloc, childrenOf_alloc] at hp hc ⊢
    exact h.parent_of_placed hp hc
  slots {x c i} hc := by
    rw [childrenOf_alloc] at hc
    exact (h.slots hc).alloc

end Linked

/-! ## Replacement -/

namespace MayReplace

variable (h : a.Linked) (m : a.MayReplace parent target replacement)
include m

/-- The node with the place is live. -/
theorem live_parent : a.Live parent := live_of_attachedWithin (hasChild_iff.1 m.child).2.2

include h

/-- The root is not replaced. -/
theorem target_ne_root : target ≠ root := by
  rintro rfl
  have hp := m.parent?_target
  rw [h.root_parent] at hp
  cases hp

/-- A live node is above its child and not below it, so the node that is replaced is not the one
under which this is done. -/
theorem target_ne_parent : target ≠ parent := by
  rintro rfl
  exact h.rooted.not_below_of_mem m.live_parent m.mem .self

/-- Only the node that is replaced may list the replacement, of the placed nodes. -/
theorem not_mem (hx : a.Placed x) (hne : x ≠ target) : replacement ∉ a.childrenOf x := by
  intro hm
  have hp := h.parent_of_placed hx hm
  rcases m.owner with ho | ho
  · rw [ho] at hp
    cases hp
  · rw [ho] at hp
    injection hp with hp
    exact hne hp.symm

/-- The node with the place does not replace its own child. -/
theorem replacement_ne_parent : replacement ≠ parent := by
  rintro rfl
  rcases h.placed m.live_parent with hr | ⟨p, hp⟩
  · exact m.ne_root hr
  · have ho := m.owner.resolve_left (by rw [hp]; nofun)
    have hc := h.mem_of_parent ho
    exact h.rooted.not_below_of_mem m.live_parent m.mem (.child .self hc)

/-- The replacement does not list itself. -/
theorem not_mem_self : replacement ∉ a.childrenOf replacement := by
  intro hm
  rcases m.linked _ hm with hr | hr
  · exact m.not_mem h (.inr ⟨_, hr⟩) m.ne_target hm
  · exact m.ne_target hr

/-- A replacement that lists the node that it replaces is not attached. -/
theorem no_parent (hm : target ∈ a.childrenOf replacement) : a.parent? replacement = none := by
  refine m.owner.resolve_right fun ho => ?_
  have hp := h.parent_of_placed (.inr ⟨_, ho⟩) hm
  rw [m.parent?_target] at hp
  injection hp with hp
  exact m.replacement_ne_parent h hp.symm

/-! ## The arena behind a replacement -/

/-- Among the children of the parent the replacement is there instead of the other node. -/
theorem mem_childrenOf_after :
    c ∈ ((a.graft parent target replacement).adoptChildren replacement).childrenOf x ↔
      if x = parent then c = replacement ∨ c ∈ a.childrenOf parent ∧ c ≠ target
      else c ∈ a.childrenOf x := by
  rw [childrenOf_adoptChildren, childrenOf_graft m.parent_lt_size]
  split
  · exact List.mem_set_idxOf (h.nodup parent) m.mem
  · rfl

/-- The replacement has the place of the node that it replaces. It adopts that node if it lists
it, and otherwise the node is unattached. -/
theorem parent?_after :
    ((a.graft parent target replacement).adoptChildren replacement).parent? x =
      if x = replacement then some parent
      else if x = target then
        if target ∈ a.childrenOf replacement then some replacement else none
      else a.parent? x := by
  have hkids : (a.graft parent target replacement).childrenOf replacement =
      a.childrenOf replacement := by
    rw [childrenOf_graft m.parent_lt_size, if_neg (m.replacement_ne_parent h)]
  rw [m.parent?_adoptChildren_graft, hkids]
  by_cases hr : x = replacement
  · subst hr
    rw [if_neg (m.not_mem_self h), if_pos rfl, if_pos rfl]
  · rw [if_neg hr, if_neg hr]
    by_cases ht : x = target
    · rw [if_pos ht, if_pos ht, ht]
    · rw [if_neg ht, if_neg ht]
      split
      · next hm => exact ((m.linked x hm).resolve_right ht).symm
      · rfl

/-- Apart from the replacement, what is placed was placed before, and it is the node that was
replaced only if the replacement adopts that. -/
theorem placed_of_after
    (hx : ((a.graft parent target replacement).adoptChildren replacement).Placed x) :
    x = replacement ∨ a.Placed x ∧ (x = target → target ∈ a.childrenOf replacement) := by
  by_cases hr : x = replacement
  · exact .inl hr
  · refine .inr ?_
    rcases hx with rfl | ⟨p, hp⟩
    · exact ⟨.inl rfl, fun he => absurd he.symm (m.target_ne_root h)⟩
    · rw [m.parent?_after h, if_neg hr] at hp
      split at hp
      · next ht =>
        split at hp
        · next hm => exact ⟨.inr ⟨parent, ht ▸ m.parent?_target⟩, fun _ => hm⟩
        · cases hp
      · next ht => exact ⟨.inr ⟨p, hp⟩, fun he => absurd he ht⟩

end MayReplace

/-- An accepted replacement keeps an arena linked. -/
theorem Linked.adoptChildren_graft (h : a.Linked) (m : a.MayReplace parent target replacement) :
    ((a.graft parent target replacement).adoptChildren replacement).Linked where
  root_lt := by
    rw [size_adoptChildren, size_graft]
    exact h.root_lt
  root_parent := by
    rw [m.parent?_after h, if_neg (Ne.symm m.ne_root), if_neg (Ne.symm (m.target_ne_root h)),
      h.root_parent]
  child_lt {x c} hc := by
    rw [size_adoptChildren, size_graft]
    rw [m.mem_childrenOf_after h] at hc
    split at hc
    · rcases hc with rfl | ⟨hc, -⟩
      · exact m.lt_size
      · exact h.child_lt hc
    · exact h.child_lt hc
  nodup x := by
    rw [childrenOf_adoptChildren, childrenOf_graft m.parent_lt_size]
    split
    · have hr := m.not_mem h (h.placed m.live_parent) (Ne.symm (m.target_ne_parent h))
      exact (h.nodup parent).set hr
    · exact h.nodup x
  mem_of_parent {p c} hp := by
    rw [m.parent?_after h] at hp
    rw [m.mem_childrenOf_after h]
    split at hp
    · next hc =>
      injection hp with hp
      rw [if_pos hp.symm]
      exact .inl hc
    · split at hp
      · next hct =>
        split at hp
        · next hm =>
          injection hp with hp
          rw [if_neg (hp ▸ m.replacement_ne_parent h), hct, ← hp]
          exact hm
        · cases hp
      · next hct =>
        have hm := h.mem_of_parent hp
        split
        · next hpp => exact .inr ⟨hpp ▸ hm, hct⟩
        · exact hm
  parent_of_placed {p c} hp hc := by
    have hcase := m.placed_of_after h hp
    rw [m.mem_childrenOf_after h] at hc
    rw [m.parent?_after h]
    split at hc
    · next hpp =>
      rcases hc with rfl | ⟨hc, hct⟩
      · rw [if_pos rfl, hpp]
      · have hplaced := h.placed m.live_parent
        have hcr : c ≠ replacement := by
          rintro rfl
          exact m.not_mem h hplaced (Ne.symm (m.target_ne_parent h)) hc
        rw [if_neg hcr, if_neg hct, h.parent_of_placed hplaced hc, hpp]
    · next hpp =>
      rcases hcase with rfl | ⟨hplaced, ht⟩
      · -- the replacement has its own children, and adopts the node that it replaced
        have hcr : c ≠ p := by
          rintro rfl
          exact m.not_mem_self h hc
        rw [if_neg hcr]
        split
        · next hct => rw [if_pos (hct ▸ hc)]
        · next hct => exact (m.linked c hc).resolve_right hct
      · have hlink := h.parent_of_placed hplaced hc
        have hcr : c ≠ replacement := by
          rintro rfl
          have hpt : p = target := by
            by_contra hne
            exact m.not_mem h hplaced hne hc
          rw [m.no_parent h (ht hpt)] at hlink
          cases hlink
        have hct : c ≠ target := by
          rintro rfl
          rw [m.parent?_target] at hlink
          injection hlink with hlink
          exact hpp hlink.symm
        rw [if_neg hcr, if_neg hct, hlink]
  slots {x c i} hc := by
    rw [slotTakes_congr fun _ => data?_adoptChildren]
    rw [childrenOf_adoptChildren] at hc
    exact slots_graft m.parent_lt_size h.slots m.slot hc

/-! ## Removal -/

/-- An accepted removal keeps an arena linked. -/
theorem Linked.prune (h : a.Linked) (hc : a.hasChild parent child = true)
    (hv : ∃ data, a.data? parent = some data ∧ data.isVariadic = true) :
    (a.prune parent child).Linked := by
  obtain ⟨hlink, hm, -⟩ := hasChild_iff.1 hc
  have hp : parent < a.size := lt_size_of_mem_childrenOf hm
  have hparent {x : NodeId} : (a.prune parent child).parent? x =
      if x = child then none else a.parent? x := parent?_prune (h.child_lt hm)
  have hmem {x c : NodeId} : c ∈ (a.prune parent child).childrenOf x ↔
      c ∈ a.childrenOf x ∧ (x = parent → c ≠ child) := mem_childrenOf_prune hp (h.nodup parent)
  exact {
    root_lt := by
      rw [size_prune]
      exact h.root_lt
    root_parent := by rw [hparent, h.root_parent, ite_self]
    child_lt := by
      intro x c hc
      rw [size_prune]
      exact h.child_lt (hmem.1 hc).1
    nodup := by
      intro x
      rw [childrenOf_prune hp]
      split
      · exact (h.nodup parent).erase child
      · exact h.nodup x
    mem_of_parent := by
      intro p c hpar
      rw [hparent] at hpar
      split at hpar
      · cases hpar
      · next hne => exact hmem.2 ⟨h.mem_of_parent hpar, fun _ => hne⟩
    parent_of_placed := by
      intro p c hplaced hc
      have hplaced : a.Placed p := by
        rcases hplaced with rfl | ⟨q, hq⟩
        · exact .inl rfl
        · rw [hparent] at hq
          split at hq
          · cases hq
          · exact .inr ⟨q, hq⟩
      obtain ⟨hc, hne⟩ := hmem.1 hc
      have hpar := h.parent_of_placed hplaced hc
      have hcc : c ≠ child := by
        rintro rfl
        rw [hlink] at hpar
        injection hpar with hpar
        exact hne hpar.symm rfl
      rw [hparent, if_neg hcc, hpar]
    slots := fun hc => slots_prune hp h.slots hv hc }

/-! ## Insertion -/

/-- The child that was put into a list is in it, and nothing else is new. -/
theorem mem_childrenOf_plant (hp : parent < a.size)
    (hi : index ≤ (a.childrenOf parent).length) :
    c ∈ (a.plant parent index child).childrenOf x ↔
      x = parent ∧ c = child ∨ c ∈ a.childrenOf x := by
  rw [childrenOf_plant hp]
  split
  · next hx =>
    subst hx
    rw [List.mem_insertIdx hi]
    simp
  · next hx => simp [hx]

/-- Where all places are filled as they ask, they are after an insertion: the places to which
children may come are all alike. -/
theorem slots_plant (hs : ∀ {x c i : Nat}, (a.childrenOf x)[i]? = some c → a.SlotTakes x i c)
    (m : a.MayInsert parent index child) {i : Nat}
    (hc : ((a.plant parent index child).childrenOf x)[i]? = some c) :
    (a.plant parent index child).SlotTakes x i c := by
  rw [slotTakes_congr fun _ => data?_plant]
  have hp := m.parent_lt_size
  have hm := List.mem_of_getElem? hc
  rw [mem_childrenOf_plant hp m.index_le] at hm
  obtain ⟨data, hd, hv⟩ := m.variadic
  by_cases hx : x = parent
  · subst hx
    have hslot : ∃ j, a.SlotTakes x j c := by
      rcases hm with ⟨-, rfl⟩ | hm
      · exact ⟨index, m.slot⟩
      · obtain ⟨j, hj⟩ := List.mem_iff_getElem?.1 hm
        exact ⟨j, hs hj⟩
    obtain ⟨j, data', slot, part, hd', hsl, hpart⟩ := hslot
    rw [hd] at hd'
    injection hd' with hd'
    refine ⟨data, slot, part, hd, ?_, hpart⟩
    rw [Payload.slotKind?_of_isVariadic hv i j, hd', hsl]
  · rw [childrenOf_plant hp, if_neg hx] at hc
    exact hs hc

/-- An accepted insertion keeps an arena linked, if the list does not have the node already. -/
theorem Linked.plant (h : a.Linked) (m : a.MayInsert parent index child)
    (hm : child ∉ a.childrenOf parent) : (a.plant parent index child).Linked := by
  have hp := m.parent_lt_size
  have hc := m.child_lt_size
  have hparent {x : NodeId} : (a.plant parent index child).parent? x =
      if x = child then some parent else a.parent? x := parent?_plant hc
  have hmem {x c : NodeId} : c ∈ (a.plant parent index child).childrenOf x ↔
      x = parent ∧ c = child ∨ c ∈ a.childrenOf x := mem_childrenOf_plant hp m.index_le
  have hne {x c : NodeId} (hx : a.parent? c = some x) : c ≠ child := by
    rintro rfl
    rw [m.no_parent] at hx
    cases hx
  exact {
    root_lt := by
      rw [size_plant]
      exact h.root_lt
    root_parent := by rw [hparent, if_neg (Ne.symm m.ne_root), h.root_parent]
    child_lt := by
      intro x c hc'
      rw [size_plant]
      rcases hmem.1 hc' with ⟨-, rfl⟩ | hc'
      · exact hc
      · exact h.child_lt hc'
    nodup := by
      intro x
      rw [childrenOf_plant hp]
      split
      · rw [(List.perm_insertIdx child _ m.index_le).nodup_iff, List.nodup_cons]
        exact ⟨hm, h.nodup parent⟩
      · exact h.nodup x
    mem_of_parent := by
      intro p c hpar
      rw [hparent] at hpar
      split at hpar
      · next hcc =>
        injection hpar with hpar
        exact hmem.2 (.inl ⟨hpar.symm, hcc⟩)
      · exact hmem.2 (.inr (h.mem_of_parent hpar))
    parent_of_placed := by
      intro p c hplaced hc'
      rcases hmem.1 hc' with ⟨rfl, rfl⟩ | hc'
      · rw [hparent, if_pos rfl]
      · -- the node that was put in has its own children, whether it was placed before or not
        have hpar : a.parent? c = some p := by
          by_cases hpc : p = child
          · exact hpc ▸ m.linked c (hpc ▸ hc')
          · refine h.parent_of_placed ?_ hc'
            rcases hplaced with rfl | ⟨q, hq⟩
            · exact .inl rfl
            · rw [hparent, if_neg hpc] at hq
              exact .inr ⟨q, hq⟩
        rw [hparent, if_neg (hne hpar), hpar]
    slots := fun hc => slots_plant h.slots m hc }

end

end ShaderShrink.Arena

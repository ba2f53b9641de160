import Mathlib.Data.List.InsertIdx
import ShaderShrink.Proofs.Arena.Graft

/-!
# Removals in well-formed arenas

A child of a live node whose children may come and go can be taken out
(`WellFormed.removeChild_eq`). The arena stays well formed (`WellFormed.prune`), what is live
afterwards was live before and is not the child (`WellFormed.live_prune`), and putting the child
back where it was restores the arena (`WellFormed.insertChild_prune`).
-/

namespace ShaderShrink.Arena

section
variable {a : Arena} {x c parent child : Nat}

/-- The members of the child lists that a removal leaves. -/
theorem mem_childrenOf_prune (hp : parent < a.size) (hnd : (a.childrenOf parent).Nodup) :
    c ∈ (a.prune parent child).childrenOf x ↔ c ∈ a.childrenOf x ∧ (x = parent → c ≠ child) := by
  rw [childrenOf_prune hp]
  split
  · next hx =>
    rw [hnd.mem_erase_iff, hx]
    constructor
    · rintro ⟨hne, hm⟩
      exact ⟨hm, fun _ => hne⟩
    · rintro ⟨hm, hne⟩
      exact ⟨hne rfl, hm⟩
  · next hx =>
    constructor
    · intro hm
      exact ⟨hm, fun he => absurd he hx⟩
    · exact And.left

/-- Where all places are filled as they ask, they are after a removal: the places from which
children may go are all alike. -/
theorem slots_prune (hp : parent < a.size)
    (hs : ∀ {x c i : Nat}, (a.childrenOf x)[i]? = some c → a.SlotTakes x i c)
    (hv : ∃ data, a.data? parent = some data ∧ data.isVariadic = true) {i : Nat}
    (hm : ((a.prune parent child).childrenOf x)[i]? = some c) :
    (a.prune parent child).SlotTakes x i c := by
  rw [slotTakes_congr fun _ => data?_prune]
  rw [childrenOf_prune hp] at hm
  split at hm
  · next hx =>
    obtain ⟨data, hd, hv⟩ := hv
    obtain ⟨j, hj⟩ := List.mem_iff_getElem?.1 (List.mem_of_mem_erase (List.mem_of_getElem? hm))
    obtain ⟨data', slot, part, hd', hsl, hpart⟩ := hs hj
    rw [hd] at hd'
    injection hd' with hd'
    refine ⟨data, slot, part, hx ▸ hd, ?_, hpart⟩
    rw [Payload.slotKind?_of_isVariadic hv i j, hd', hsl]
  · exact hs hm

variable (h : a.WellFormed) (hp : a.Live parent) (hc : child ∈ a.childrenOf parent)
  (hv : ∃ data, a.data? parent = some data ∧ data.isVariadic = true)
include h hp

/-- The child that was taken out is missing from its list, and nothing else is. -/
theorem WellFormed.mem_childrenOf_prune : c ∈ (a.prune parent child).childrenOf x ↔
    c ∈ a.childrenOf x ∧ (x = parent → c ≠ child) :=
  Arena.mem_childrenOf_prune (h.lt_size_of_live hp) (h.nodup parent)

include hc

/-- What is live after a removal was live before, and the node that was taken out is not. -/
theorem WellFormed.live_prune (hx : (a.prune parent child).Live x) : x ≠ child ∧ a.Live x := by
  induction hx with
  | self =>
    refine ⟨?_, .self⟩
    intro he
    exact h.root_not_mem (he ▸ hc)
  | @child p c _ hm ih =>
    rw [h.mem_childrenOf_prune hp] at hm
    refine ⟨?_, ih.2.child hm.1⟩
    intro he
    exact hm.2 (h.live_unique ih.2 hp (he ▸ hm.1) hc) he

include hv

/-- A child of a live node whose children may go can be taken out. -/
theorem WellFormed.removeChild_eq : a.removeChild parent child =
    .ok (a.prune parent child, (a.childrenOf parent).idxOf child) :=
  removeChild_eq_ok_iff.2 ⟨hv, h.hasChild_iff.2 ⟨hp, hc⟩, rfl, rfl⟩

/-- A removal keeps an arena well formed. -/
theorem WellFormed.prune : (a.prune parent child).WellFormed where
  root_data := by rw [data?_prune, h.root_data]
  root_parent := by rw [parent?_prune (h.child_lt hc), h.root_parent, ite_self]
  lt_child hm := h.lt_child ((h.mem_childrenOf_prune hp).1 hm).1
  child_lt hm := by
    rw [size_prune]
    exact h.child_lt ((h.mem_childrenOf_prune hp).1 hm).1
  nodup x := by
    rw [childrenOf_prune (h.lt_size_of_live hp)]
    split
    · exact (h.nodup parent).erase child
    · exact h.nodup x
  mem_of_parent {p c} hpar := by
    rw [parent?_prune (h.child_lt hc)] at hpar
    split at hpar
    · cases hpar
    · next hcc =>
      exact (h.mem_childrenOf_prune hp).2 ⟨h.mem_of_parent hpar, fun _ => hcc⟩
  parent_of_live {p c} hl hm := by
    obtain ⟨-, hl⟩ := h.live_prune hp hc hl
    obtain ⟨hm, hcc⟩ := (h.mem_childrenOf_prune hp).1 hm
    have hne : c ≠ child := fun he => hcc (h.live_unique hl hp (he ▸ hm) hc) he
    rw [parent?_prune (h.child_lt hc), if_neg hne, h.parent_of_live hl hm]
  admits {x data} hd := by
    rw [data?_prune] at hd
    rw [childrenOf_prune (h.lt_size_of_live hp)]
    split
    · next hx =>
      obtain ⟨data', hd', hv⟩ := hv
      rw [hx, hd'] at hd
      injection hd with hd
      exact hd ▸ Payload.admits_of_isVariadic hv _
    · exact h.admits hd
  slots hm := slots_prune (h.lt_size_of_live hp) h.slots hv hm

/-! ## Undoing -/

/-- The pruned arena accepts the child where it was. -/
theorem WellFormed.mayInsert_prune : (a.prune parent child).MayInsert parent
    ((a.childrenOf parent).idxOf child) child where
  variadic := by simpa only [data?_prune] using hv
  index_le := by
    have hidx := List.idxOf_lt_length_iff.2 hc
    rw [childrenOf_prune (h.lt_size_of_live hp), if_pos rfl, List.length_erase_of_mem hc]
    omega
  slot := by
    rw [slotTakes_congr fun _ => data?_prune]
    exact h.slots (List.getElem?_idxOf hc)
  no_parent := by rw [parent?_prune (h.child_lt hc), if_pos rfl]
  ne_root := by
    intro he
    exact h.root_not_mem (he ▸ hc)
  linked c hm := by
    have hlt : parent < child := h.lt_child hc
    rw [childrenOf_prune (h.lt_size_of_live hp), if_neg (Nat.ne_of_gt hlt)] at hm
    rw [parent?_prune (h.child_lt hc), if_neg (Nat.ne_of_gt (h.lt_child hm)),
      h.parent_of_live (hp.child hc) hm]

omit hv in
/-- A child that is put back where it was gives the arena back. -/
theorem WellFormed.plant_prune :
    (a.prune parent child).plant parent ((a.childrenOf parent).idxOf child) child = a := by
  have hlt : parent < a.size := h.lt_size_of_live hp
  have hlc : child < a.size := h.child_lt hc
  refine ext_fields (fun x => ?_) (fun x => ?_) fun x => ?_
  · rw [data?_plant, data?_prune]
  · rw [childrenOf_plant (by rwa [size_prune]), childrenOf_prune hlt, if_pos rfl,
      childrenOf_prune hlt]
    split
    · next hx =>
      have hidx := List.idxOf_lt_length_iff.2 hc
      have hback := List.insertIdx_eraseIdx_getElem hidx
      rw [List.getElem_idxOf hidx] at hback
      rw [hx, List.erase_eq_eraseIdx_of_idxOf rfl, hback]
    · rfl
  · rw [parent?_plant (by rwa [size_prune]), parent?_prune hlc]
    split
    · next hx => rw [hx, h.parent_of_live hp hc]
    · rfl

/-- Putting a child back where it was undoes its removal. -/
theorem WellFormed.insertChild_prune : (a.prune parent child).insertChild parent
    ((a.childrenOf parent).idxOf child) child = .ok a :=
  insertChild_eq_ok_iff.2 ⟨h.mayInsert_prune hp hc hv, (h.plant_prune hp hc).symm⟩

end

end ShaderShrink.Arena

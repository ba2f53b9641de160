import Mathlib.Data.List.Perm.Subperm
import ShaderShrink.Change.Basic
import ShaderShrink.Proofs.Arena.Padding
import ShaderShrink.Proofs.Arena.Prune

/-!
# The edits that changes make

`Arena.Makes` lists the edits that changes make: a child takes the place of its parent, a new
literal takes the place of a node, or a child leaves a list. What is needed of an edit is proved by
these three cases: the arena stays well formed (`Makes.wellFormed`), and undoing the edit gives the
arena back, apart from a literal that stays behind (`Makes.revert`, `Makes.padded`).

`Arena.Shrinks` leaves out that a literal takes the place of a node without children. Then the
arena has fewer live nodes afterwards (`Shrinks.liveCount_lt`).
-/

namespace ShaderShrink.Arena

/-- `a.Makes edit back after`: the edit of `a` leads to `after`, and undoing it leads to `back`. -/
inductive Makes (a : Arena) : Edit → Arena → Arena → Prop
  | hoist {parent target child : Nat} :
    a.Fitting parent target child → child ∈ a.childrenOf target →
    a.Makes (.replaced parent target child) a (a.graft parent target child)
  | literal {parent target : Nat} {data : Payload} :
    data.isLiteral = true → (a.alloc data).1.Fitting parent target a.size →
    a.Makes (.replaced parent target a.size) (a.alloc data).1
      ((a.alloc data).1.graft parent target a.size)
  | removal {parent child : Nat} :
    a.Live parent → child ∈ a.childrenOf parent →
    (∃ data, a.data? parent = some data ∧ data.isVariadic = true) →
    a.Makes (.removed parent child ((a.childrenOf parent).idxOf child)) a (a.prune parent child)

/-- `a.Shrinks edit back after`: the edit of `a` leads to `after`, which has fewer live nodes, and
undoing it leads to `back`. -/
inductive Shrinks (a : Arena) : Edit → Arena → Arena → Prop
  | hoist {parent target child : Nat} :
    a.Fitting parent target child → child ∈ a.childrenOf target →
    a.Shrinks (.replaced parent target child) a (a.graft parent target child)
  | literal {parent target : Nat} {data : Payload} :
    data.isLiteral = true → (a.alloc data).1.Fitting parent target a.size →
    a.childrenOf target ≠ [] →
    a.Shrinks (.replaced parent target a.size) (a.alloc data).1
      ((a.alloc data).1.graft parent target a.size)
  | removal {parent child : Nat} :
    a.Live parent → child ∈ a.childrenOf parent →
    (∃ data, a.data? parent = some data ∧ data.isVariadic = true) →
    a.Shrinks (.removed parent child ((a.childrenOf parent).idxOf child)) a (a.prune parent child)

/-- What no edit changes: the payloads, and the number of children where children do not come and
go. -/
structure Evolves (a b : Arena) : Prop where
  data {x : Nat} {data : Payload} : a.data? x = some data → b.data? x = some data
  length {x : Nat} {data : Payload} : a.data? x = some data → data.isVariadic = false →
    (b.childrenOf x).length = (a.childrenOf x).length

section
variable {a b c after back : Arena} {edit : Edit}

/-- An arena evolves from itself. -/
theorem Evolves.refl : a.Evolves a := ⟨id, fun _ _ => rfl⟩

/-- Arenas evolve step by step. -/
theorem Evolves.trans (hab : a.Evolves b) (hbc : b.Evolves c) : a.Evolves c :=
  ⟨fun hd => hbc.data (hab.data hd),
    fun hd hv => (hbc.length (hab.data hd) hv).trans (hab.length hd hv)⟩

/-! ## Counting -/

/-- If more nodes have gone than have come, fewer nodes are live. -/
theorem WellFormed.liveCount_lt (ha : a.WellFormed) (hb : b.WellFormed) (come gone : List NodeId)
    (hcome : ∀ x, b.Live x → x ∈ come ∨ a.Live x) (hgone : ∀ x ∈ gone, a.Live x ∧ ¬ b.Live x)
    (hnd : gone.Nodup) (hlt : come.length < gone.length) : b.liveCount < a.liveCount := by
  have hnodup : (b.preorder ++ gone).Nodup := by
    refine List.nodup_append.2 ⟨hb.nodup_preorder, hnd, ?_⟩
    intro x hx y hy he
    exact (hgone y hy).2 (hb.mem_preorder_iff.1 (he ▸ hx))
  have hsub : b.preorder ++ gone ⊆ come ++ a.preorder := by
    intro x hx
    rw [List.mem_append, ha.mem_preorder_iff]
    rcases List.mem_append.1 hx with hx | hx
    · exact hcome x (hb.mem_preorder_iff.1 hx)
    · exact .inr (hgone x hx).1
  have hle := (hnodup.subperm hsub).length_le
  rw [List.length_append, List.length_append] at hle
  rw [liveCount, liveCount]
  omega

/-! ## The edits -/

/-- A node that is added is not live, and the others are as before. -/
theorem live_alloc {data : Payload} {x : Nat} : (a.alloc data).1.Live x ↔ a.Live x :=
  below_congr fun _ => childrenOf_alloc

namespace Makes

/-- An edit keeps an arena well formed. -/
theorem wellFormed (s : a.Makes edit back after) (h : a.WellFormed) : after.WellFormed := by
  cases s with
  | hoist f _ => exact h.graft f
  | literal hd f => exact (h.alloc (Payload.admits_of_isLiteral hd)).graft f
  | removal hp hc hv => exact h.prune hp hc hv

/-- Undoing an edit works. -/
theorem revert (s : a.Makes edit back after) (h : a.WellFormed) :
    edit.revert after = .ok back := by
  cases s with
  | hoist f _ => exact f.replaceChild_graft h
  | literal hd f => exact f.replaceChild_graft (h.alloc (Payload.admits_of_isLiteral hd))
  | removal hp hc hv => exact h.insertChild_prune hp hc hv

/-- Undoing an edit leaves the arena as it was, apart from a literal. -/
theorem padded (s : a.Makes edit back after) (h : b.Padded a) : b.Padded back := by
  cases s with
  | hoist => exact h
  | literal hd => exact h.alloc hd
  | removal => exact h

/-- What an edit makes evolves from what was there. -/
theorem evolves (s : a.Makes edit back after) (h : a.WellFormed) : a.Evolves after := by
  constructor
  · intro x data hd
    cases s with
    | hoist => rwa [data?_graft]
    | literal => rwa [data?_graft, data?_alloc_of_lt (lt_size_of_data? hd)]
    | removal => rwa [data?_prune]
  · intro x data hd hv
    cases s with
    | hoist f =>
      rw [f.childrenOf_graft h]
      split
      · next hx => rw [List.length_set, hx]
      · rfl
    | literal hl f =>
      rw [f.childrenOf_graft (h.alloc (Payload.admits_of_isLiteral hl))]
      split
      · next hx => rw [List.length_set, hx, childrenOf_alloc]
      · rw [childrenOf_alloc]
    | removal hp _ hv' =>
      rw [childrenOf_prune (h.lt_size_of_live hp)]
      split
      · next hx =>
        obtain ⟨data', hd', hv'⟩ := hv'
        rw [hx, hd'] at hd
        cases hd
        rw [hv] at hv'
        cases hv'
      · rfl

end Makes

namespace Shrinks

/-- An edit that shrinks the program makes what it says. -/
theorem makes (s : a.Shrinks edit back after) : a.Makes edit back after := by
  cases s with
  | hoist f hc => exact .hoist f hc
  | literal hd f _ => exact .literal hd f
  | removal hp hc hv => exact .removal hp hc hv

/-- An edit that shrinks the program keeps the arena well formed. -/
theorem wellFormed (s : a.Shrinks edit back after) (h : a.WellFormed) : after.WellFormed :=
  s.makes.wellFormed h

/-- A shrinking edit leaves fewer live nodes. A literal comes for at least two nodes, the one that
it replaces and a child of that one. -/
theorem liveCount_lt (s : a.Shrinks edit back after) (h : a.WellFormed) :
    after.liveCount < a.liveCount := by
  have hw := s.wellFormed h
  cases s with
  | @hoist parent target child f hc =>
    refine h.liveCount_lt hw [] [target] ?_ ?_ (by simp) (by simp)
    · intro x hx
      obtain ⟨-, hl | ⟨hs, -⟩⟩ := f.live_graft h hx
      · exact .inr hl
      · exact absurd hc (hs.not_listed target)
    · rw [List.forall_mem_singleton]
      exact ⟨f.live_target, fun hl => (f.live_graft h hl).1 rfl⟩
  | @literal parent target data hd f hne =>
    obtain ⟨c, hc⟩ := List.exists_mem_of_ne_nil _ hne
    have ha := h.alloc (Payload.admits_of_isLiteral hd)
    have hlt : target < c := h.lt_child hc
    have hcs : c < a.size := h.child_lt hc
    have hlive : a.Live target := live_alloc.1 f.live_target
    refine h.liveCount_lt hw [a.size] [target, c] ?_ ?_ (by simpa using Nat.ne_of_lt hlt)
      (by simp)
    · intro x hx
      obtain ⟨-, hl | ⟨-, rfl⟩⟩ := f.live_graft ha hx
      · exact .inr (live_alloc.1 hl)
      · exact .inl (List.mem_singleton.2 rfl)
    · simp only [List.mem_cons, List.not_mem_nil, or_false]
      rintro x (rfl | rfl)
      · exact ⟨hlive, fun hl => (f.live_graft ha hl).1 rfl⟩
      · exact ⟨hlive.child hc,
          f.not_live_child ha (childrenOf_alloc.symm ▸ hc) (Nat.ne_of_lt hcs)⟩
  | @removal parent child hp hc hv =>
    refine h.liveCount_lt hw [] [child] ?_ ?_ (by simp) (by simp)
    · intro x hx
      exact .inr (h.live_prune hp hc hx).2
    · rw [List.forall_mem_singleton]
      exact ⟨hp.child hc, fun hl => (h.live_prune hp hc hl).1 rfl⟩

end Shrinks

end

end ShaderShrink.Arena

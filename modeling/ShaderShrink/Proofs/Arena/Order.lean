import ShaderShrink.Proofs.Arena.Layout

/-!
# The order of nodes

A walk meets the nodes of an outline in the order in which the outline is laid out. So where an
outline was laid out, a walk meets one number after another (`Outline.LaidAt.walk_eq`). Where the
same outline is found in another arena, under any numbers, a walk there meets the nodes of which the
laid out ones are copies (`Outline.At.copiedTo`): `Arena.CopiedTo` says that they have the same
payloads and the same children, up to the numbers, and `Arena.CopiedTo.childrenOf_eq` that the
numbers are the positions in the walk.
-/

namespace ShaderShrink

namespace Outline

variable {a : Arena}

mutual

/-- Where an outline was laid out, a walk meets one number after another. -/
theorem LaidAt.walk_eq : ∀ {t : Outline} {parent : Option NodeId} {id n : Nat},
    t.LaidAt a parent id → t.height ≤ n → a.walk n id = List.range' id t.size
  | .node _ _, _, _, 0, _, hn => absurd hn (Nat.not_le.2 (height_pos _))
  | .node _ parts, _, id, n + 1, h, hn => by
    rw [Arena.walk, Arena.childrenOf_of_get? h.1,
      AllLaidAt.walk_eq h.2 (Nat.le_of_succ_le_succ hn), size, List.range'_succ]

/-- A walk through outlines that were laid out comes to their nodes in the order of the numbers. -/
theorem AllLaidAt.walk_eq : ∀ {ts : List Outline} {parent id n : Nat},
    AllLaidAt a parent id ts → heightAll ts ≤ n →
    (positions id ts).flatMap (a.walk n) = List.range' id (sizeAll ts)
  | [], _, _, _, _, _ => rfl
  | t :: rest, _, id, n, h, hn => by
    obtain ⟨h₁, h₂⟩ := Nat.max_le.1 hn
    rw [positions, List.flatMap_cons, LaidAt.walk_eq h.1 h₁, AllLaidAt.walk_eq h.2 h₂, sizeAll,
      List.range'_append_1]

end

end Outline

namespace Arena

/-- The number `d` is the one that the node `c` gets where the nodes `xs` are numbered from `start`
on. -/
def Renumbered (xs : List NodeId) (start : Nat) (c d : NodeId) : Prop :=
  ∃ k, xs[k]? = some c ∧ d = start + k

/-- The nodes of `b` from `start` on are copies of the nodes `xs` of `a`: they have the same
payloads, and the same children up to their numbers. -/
def CopiedTo (a b : Arena) (xs : List NodeId) (start : Nat) : Prop :=
  ∀ k x, xs[k]? = some x → b.data? (start + k) = a.data? x ∧
    List.Forall₂ (Renumbered xs start) (a.childrenOf x) (b.childrenOf (start + k))

section
variable {a b : Arena} {xs ys : List NodeId} {start x c d i : Nat}

/-- A walk starts where it is started. -/
theorem walk_start (a : Arena) (id : NodeId) {n : Nat} (hn : 0 < n) :
    (a.walk n id)[0]? = some id := by
  cases n with
  | zero => cases hn
  | succ n => rfl

/-- Nodes behind the others do not change the new numbers of those. -/
theorem Renumbered.append_right (h : Renumbered xs start c d) :
    Renumbered (xs ++ ys) start c d := by
  obtain ⟨k, hk, rfl⟩ := h
  have hlt := (List.getElem?_eq_some_iff.1 hk).1
  exact ⟨k, by rw [List.getElem?_append_left hlt, hk], rfl⟩

/-- Nodes in front of the others move the new numbers of those up. -/
theorem Renumbered.append_left (h : Renumbered ys (start + xs.length) c d) :
    Renumbered (xs ++ ys) start c d := by
  obtain ⟨k, hk, rfl⟩ := h
  refine ⟨xs.length + k, ?_, Nat.add_assoc ..⟩
  rw [List.getElem?_append_right (Nat.le_add_right ..), Nat.add_sub_cancel_left, hk]

/-- A number among copied nodes stays one behind another node. -/
theorem Renumbered.cons (h : Renumbered xs (start + 1) c d) : Renumbered (x :: xs) start c d :=
  show Renumbered ([x] ++ xs) start c d from .append_left h

/-- No nodes are copied wherever they start. -/
theorem CopiedTo.nil : CopiedTo a b [] start := nofun

/-- Nodes one after another are copied one after another. -/
theorem CopiedTo.append (hx : CopiedTo a b xs start) (hy : CopiedTo a b ys (start + xs.length)) :
    CopiedTo a b (xs ++ ys) start := by
  intro k x hk
  by_cases hlt : k < xs.length
  · rw [List.getElem?_append_left hlt] at hk
    obtain ⟨hd, hc⟩ := hx k x hk
    exact ⟨hd, hc.imp fun _ _ => .append_right⟩
  · rw [List.getElem?_append_right (Nat.le_of_not_lt hlt)] at hk
    obtain ⟨hd, hc⟩ := hy _ x hk
    rw [Nat.add_assoc, Nat.add_sub_cancel' (Nat.le_of_not_lt hlt)] at hd hc
    exact ⟨hd, hc.imp fun _ _ => .append_left⟩

/-- A node in front of copied ones is copied if its children are among them. -/
theorem CopiedTo.cons (hd : b.data? start = a.data? x)
    (hc : List.Forall₂ (Renumbered xs (start + 1)) (a.childrenOf x) (b.childrenOf start))
    (h : CopiedTo a b xs (start + 1)) : CopiedTo a b (x :: xs) start := by
  intro k y hk
  cases k with
  | zero =>
    obtain rfl : x = y := Option.some.inj hk
    exact ⟨hd, hc.imp fun _ _ => .cons⟩
  | succ k =>
    obtain ⟨hd, hc⟩ := h k y hk
    rw [Nat.add_assoc, Nat.add_comm 1 k] at hd hc
    exact ⟨hd, hc.imp fun _ _ => .cons⟩

/-- Where no node is met twice, the numbers of copies are the positions of the nodes. -/
theorem CopiedTo.childrenOf_eq (h : CopiedTo a b xs 0) (hnd : xs.Nodup) (hx : xs[i]? = some x) :
    b.childrenOf i = (a.childrenOf x).map xs.idxOf := by
  obtain ⟨-, hc⟩ := h i x hx
  rw [Nat.zero_add] at hc
  refine (List.forall₂_eq_eq_eq ▸ List.forall₂_map_left_iff.2 (hc.imp ?_)).symm
  rintro c _ ⟨k, hk, rfl⟩
  obtain ⟨hlt, rfl⟩ := List.getElem?_eq_some_iff.1 hk
  rw [hnd.idxOf_getElem, Nat.zero_add]

end

end Arena

namespace Outline

variable {a b : Arena}

mutual

/-- A walk that meets an outline meets the nodes of which those are copies that are there where the
outline was laid out. -/
theorem At.copiedTo : ∀ {t : Outline} {parent : Option NodeId} {id start n : Nat}, t.At a id →
    t.LaidAt b parent start → t.height ≤ n → Arena.CopiedTo a b (a.walk n id) start
  | .node _ _, _, _, _, 0, _, _, hn => absurd hn (Nat.not_le.2 (height_pos _))
  | .node _ parts, _, id, start, n + 1, h, hl, hn => by
    obtain ⟨hcopied, hnumbers⟩ := AllAt.copiedTo h.2 hl.2 (Nat.le_of_succ_le_succ hn)
    rw [Arena.walk]
    refine .cons ?_ ?_ hcopied
    · rw [h.1, Arena.data?_of_get? hl.1]
    · rw [Arena.childrenOf_of_get? hl.1]
      exact hnumbers

/-- The nodes of outlines that are read in one arena are copied to where the outlines were laid out
in the other, and their tops are renumbered accordingly. -/
theorem AllAt.copiedTo : ∀ {ts : List Outline} {ids : List NodeId} {parent start n : Nat},
    AllAt a ts ids → AllLaidAt b parent start ts → heightAll ts ≤ n →
    Arena.CopiedTo a b (ids.flatMap (a.walk n)) start ∧
      List.Forall₂ (Arena.Renumbered (ids.flatMap (a.walk n)) start) ids (positions start ts)
  | [], _, _, _, _, h, _, _ => by
    rw [h]
    exact ⟨.nil, .nil⟩
  | t :: rest, _, _, start, n, ⟨id, more, he, ht, hrest⟩, hl, hn => by
    obtain ⟨h₁, h₂⟩ := Nat.max_le.1 hn
    have hlen := At.length_walk ht h₁
    have hfirst := At.copiedTo ht hl.1 h₁
    obtain ⟨hcopied, hnumbers⟩ := AllAt.copiedTo hrest hl.2 h₂
    rw [← hlen] at hcopied hnumbers
    rw [he, List.flatMap_cons, positions, ← hlen]
    have hstart := a.walk_start id (Nat.lt_of_lt_of_le t.height_pos h₁)
    exact ⟨hfirst.append hcopied, .cons (.append_right ⟨0, hstart, rfl⟩)
      (hnumbers.imp fun _ _ => .append_left)⟩

end

end Outline

end ShaderShrink

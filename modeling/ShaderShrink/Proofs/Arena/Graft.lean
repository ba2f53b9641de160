import ShaderShrink.Proofs.Arena.WellFormed

/-!
# Replacements in well-formed arenas

A replacement is *fitting* (`Arena.Fitting`) if the node that it replaces is live, its place takes
the replacement, and the replacement is a child of that node or an unattached leaf
(`Arena.Spare`). A fitting replacement is accepted (`Fitting.replaceChild_eq`), keeps the arena well
formed (`WellFormed.graft`) and is undone exactly by the opposite replacement
(`Fitting.replaceChild_graft`). The nodes that are live afterwards were live before, apart from a
leaf that was attached, and the node that was replaced is not live any more
(`Fitting.live_graft`).
-/

namespace List

variable {α : Type} [DecidableEq α] {l : List α} {x y z : α}

/-- The members of a list in which one member was exchanged. -/
theorem mem_set_idxOf (hl : l.Nodup) (hx : x ∈ l) :
    z ∈ l.set (l.idxOf x) y ↔ z = y ∨ z ∈ l ∧ z ≠ x := by
  induction l with
  | nil => cases hx
  | cons w rest ih =>
    obtain ⟨hw, hrest⟩ := nodup_cons.1 hl
    by_cases hwx : w = x
    · subst hwx
      rw [idxOf_cons_self, set_cons_zero, mem_cons, mem_cons]
      apply or_congr_right
      constructor
      · intro hz
        exact ⟨.inr hz, fun he => hw (he ▸ hz)⟩
      · rintro ⟨hz, hne⟩
        exact hz.resolve_left hne
    · have hxr : x ∈ rest := (mem_cons.1 hx).resolve_left (Ne.symm hwx)
      rw [idxOf_cons_ne _ hwx, set_cons_succ, mem_cons, mem_cons, ih hrest hxr]
      grind

/-- Exchanging a member and exchanging it back. -/
theorem set_idxOf_set_idxOf (hy : y ∉ l) : (l.set (l.idxOf x) y).set
    ((l.set (l.idxOf x) y).idxOf y) x = l := by
  induction l with
  | nil => rfl
  | cons w rest ih =>
    obtain ⟨hyw, hyr⟩ := not_or.1 (mt mem_cons.2 hy)
    by_cases hwx : w = x
    · subst hwx
      simp
    · rw [idxOf_cons_ne _ hwx, set_cons_succ, idxOf_cons_ne _ (Ne.symm hyw), set_cons_succ, ih hyr]

/-- What is exchanged for a member has its place. -/
theorem idxOf_set_idxOf (hx : x ∈ l) (hy : y ∉ l) :
    (l.set (l.idxOf x) y).idxOf y = l.idxOf x := by
  induction l with
  | nil => cases hx
  | cons w rest ih =>
    obtain ⟨hyw, hyr⟩ := not_or.1 (mt mem_cons.2 hy)
    by_cases hwx : w = x
    · subst hwx
      simp
    · have hxr : x ∈ rest := (mem_cons.1 hx).resolve_left (Ne.symm hwx)
      rw [idxOf_cons_ne _ hwx, set_cons_succ, idxOf_cons_ne _ (Ne.symm hyw), ih hxr hyr]

end List

namespace ShaderShrink.Arena

/-- An unattached leaf that nobody lists. -/
structure Spare (a : Arena) (id : NodeId) : Prop where
  lt_size : id < a.size
  no_children : a.childrenOf id = []
  no_parent : a.parent? id = none
  not_listed (x : NodeId) : id ∉ a.childrenOf x

/-- A replacement that a well-formed arena accepts. -/
structure Fitting (a : Arena) (parent target replacement : Nat) : Prop where
  live : a.Live parent
  mem : target ∈ a.childrenOf parent
  slot : a.SlotTakes parent ((a.childrenOf parent).idxOf target) replacement
  source : replacement ∈ a.childrenOf target ∨ a.Spare replacement ∧ target < replacement

section
variable {a : Arena} {x y c parent target replacement child : Nat} {i : Nat}

/-- Which places take a node depends on the payloads only. -/
theorem slotTakes_congr {b : Arena} (h : ∀ x, b.data? x = a.data? x) :
    b.SlotTakes x i c ↔ a.SlotTakes x i c := by
  simp only [SlotTakes, h]

/-- Where all places are filled as they ask, they are in the graft. -/
theorem slots_graft (hp : parent < a.size)
    (hs : ∀ {x c i : Nat}, (a.childrenOf x)[i]? = some c → a.SlotTakes x i c)
    (hr : a.SlotTakes parent ((a.childrenOf parent).idxOf target) replacement)
    (hc : ((a.graft parent target replacement).childrenOf x)[i]? = some c) :
    (a.graft parent target replacement).SlotTakes x i c := by
  rw [slotTakes_congr fun _ => data?_graft]
  rw [childrenOf_graft hp] at hc
  split at hc
  · next hx =>
    subst hx
    rw [List.getElem?_set] at hc
    split at hc
    · next hi =>
      subst hi
      split at hc
      · injection hc with hc
        exact hc ▸ hr
      · cases hc
    · exact hs hc
  · exact hs hc

/-! ## Adopting children -/

/-- Adopting children leaves the payloads alone. -/
theorem data?_adoptChildren : (a.adoptChildren x).data? y = a.data? y := by
  rw [data?, get?_adoptChildren]
  split
  · rw [Option.map_map]; rfl
  · rfl

/-- Adopting children leaves the lists of children alone. -/
theorem childrenOf_adoptChildren : (a.adoptChildren x).childrenOf y = a.childrenOf y := by
  rw [childrenOf, get?_adoptChildren, childrenOf.eq_def a y]
  split
  · cases a.get? y <;> rfl
  · rfl

/-- A node that adopts its children is their parent. -/
theorem parent?_adoptChildren (h : ∀ c ∈ a.childrenOf x, c < a.size) :
    (a.adoptChildren x).parent? y = if y ∈ a.childrenOf x then some x else a.parent? y := by
  rw [parent?, get?_adoptChildren]
  split
  · next hy =>
    obtain ⟨node, hn⟩ := lt_size_iff.1 (h y hy)
    rw [hn]; rfl
  · rfl

/-- The parents in the arena behind an accepted replacement. -/
theorem MayReplace.parent?_adoptChildren_graft (m : a.MayReplace parent target replacement) :
    ((a.graft parent target replacement).adoptChildren replacement).parent? x =
      if x ∈ (a.graft parent target replacement).childrenOf replacement then some replacement
      else if x = replacement then some parent
      else if x = target then none
      else a.parent? x := by
  rw [parent?_adoptChildren, parent?_graft m.target_lt_size m.lt_size]
  intro c hc
  rw [size_graft]
  rw [childrenOf_graft m.parent_lt_size] at hc
  split at hc
  · next hr =>
    rcases List.mem_or_eq_of_mem_set hc with hc | rfl
    · exact m.linked_lt_size (hr ▸ hc)
    · exact m.lt_size
  · exact m.linked_lt_size hc

namespace Fitting

/-- What is replaced is live. -/
theorem live_target (f : a.Fitting parent target replacement) : a.Live target :=
  f.live.child f.mem

variable (h : a.WellFormed) (f : a.Fitting parent target replacement)
include h f

/-! ## Where the replacement comes from -/

/-- There is a node to be replaced. -/
theorem target_lt_size : target < a.size := h.child_lt f.mem

/-- There is a node with the place. -/
theorem parent_lt_size : parent < a.size := h.lt_size_of_live f.live

/-- What is replaced comes after its parent. -/
theorem parent_lt_target : parent < target := h.lt_child f.mem

/-- The replacement comes after what it replaces. -/
theorem target_lt : target < replacement := f.source.elim h.lt_child And.right

/-- The replacement comes after the node with the place. -/
theorem parent_lt : parent < replacement := Nat.lt_trans (f.parent_lt_target h) (f.target_lt h)

/-- What is replaced says that it is a child of the parent. -/
theorem parent?_target : a.parent? target = some parent := h.parent_of_live f.live f.mem

/-- There is a replacement. -/
theorem lt_size : replacement < a.size := f.source.elim h.child_lt fun s => s.1.lt_size

/-- Only the node that is replaced may list the replacement, of the live nodes. -/
theorem not_mem (hx : a.Live x) (hne : x ≠ target) : replacement ∉ a.childrenOf x := by
  intro hm
  rcases f.source with hc | ⟨hs, -⟩
  · exact hne (h.live_unique hx f.live_target hm hc)
  · exact hs.not_listed x hm

/-- The replacement is not among the children of the parent yet. -/
theorem not_mem_parent : replacement ∉ a.childrenOf parent :=
  f.not_mem h f.live (Nat.ne_of_lt (f.parent_lt_target h))

/-- The replacement is nobody's child, or that of the node that it replaces. -/
theorem owner : a.parent? replacement = none ∨ a.parent? replacement = some target := by
  rcases f.source with hc | ⟨hs, -⟩
  · exact .inr (h.parent_of_live f.live_target hc)
  · exact .inl hs.no_parent

/-- The children of the replacement say that they are its children. -/
theorem linked (hc : c ∈ a.childrenOf replacement) : a.parent? c = some replacement := by
  rcases f.source with hr | ⟨hs, -⟩
  · exact h.parent_of_live (f.live_target.child hr) hc
  · rw [hs.no_children] at hc
    cases hc

/-! ## The graft -/

/-- The replacement stands where the other node stood. -/
theorem childrenOf_graft : (a.graft parent target replacement).childrenOf x =
    if x = parent then (a.childrenOf parent).set ((a.childrenOf parent).idxOf target) replacement
    else a.childrenOf x :=
  Arena.childrenOf_graft (f.parent_lt_size h)

/-- The replacement has the parent, and what it replaces has none any more. -/
theorem parent?_graft : (a.graft parent target replacement).parent? x =
    if x = replacement then some parent else if x = target then none else a.parent? x :=
  Arena.parent?_graft (f.target_lt_size h) (f.lt_size h)

/-- Among the children of the parent the replacement is there instead of the other node. -/
theorem mem_childrenOf_graft : c ∈ (a.graft parent target replacement).childrenOf x ↔
    if x = parent then c = replacement ∨ c ∈ a.childrenOf parent ∧ c ≠ target
    else c ∈ a.childrenOf x := by
  rw [f.childrenOf_graft h]
  split
  · exact List.mem_set_idxOf (h.nodup parent) f.mem
  · rfl

/-- What is live in the graft was live before, or is the leaf that was attached; the node that was
replaced is not live. -/
theorem live_graft (hx : (a.graft parent target replacement).Live x) :
    x ≠ target ∧ (a.Live x ∨ a.Spare replacement ∧ x = replacement) := by
  have hne : replacement ≠ target := Nat.ne_of_gt (f.target_lt h)
  induction hx with
  | self =>
    refine ⟨?_, .inl .self⟩
    intro he
    exact h.root_not_mem (he ▸ f.mem)
  | @child p c _ hc ih =>
    rw [f.mem_childrenOf_graft h] at hc
    split at hc
    · next hp =>
      rcases hc with rfl | ⟨hc, hct⟩
      · refine ⟨hne, ?_⟩
        rcases f.source with hr | ⟨hs, -⟩
        · exact .inl (f.live_target.child hr)
        · exact .inr ⟨hs, rfl⟩
      · exact ⟨hct, .inl (f.live.child hc)⟩
    · next hp =>
      rcases ih.2 with hlp | ⟨hs, rfl⟩
      · refine ⟨?_, .inl (hlp.child hc)⟩
        intro he
        exact hp (h.live_unique hlp f.live (he ▸ hc) f.mem)
      · rw [hs.no_children] at hc
        cases hc

/-- Children of the node that was replaced are gone with it, apart from the replacement. -/
theorem not_live_child (hc : c ∈ a.childrenOf target) (hcr : c ≠ replacement) :
    ¬ (a.graft parent target replacement).Live c := by
  intro hl
  cases hl with
  | self => exact h.root_not_mem hc
  | @child p _ hp hm =>
    obtain ⟨hpt, hl⟩ := f.live_graft h hp
    rw [f.mem_childrenOf_graft h] at hm
    split at hm
    · have hpar := h.live_unique f.live f.live_target (hm.resolve_left hcr).1 hc
      exact Nat.ne_of_lt (f.parent_lt_target h) hpar
    · rcases hl with hl | ⟨hs, rfl⟩
      · exact hpt (h.live_unique hl f.live_target hm hc)
      · rw [hs.no_children] at hm
        cases hm

/-- The parent of a replacement stays live. -/
theorem live_parent_graft : (a.graft parent target replacement).Live parent := by
  -- no node on the way from the root to the parent is the one whose list changed
  have key {x : Nat} (hx : a.Live x) (hle : x ≤ parent) :
      (a.graft parent target replacement).Live x := by
    induction hx with
    | self => exact .self
    | @child p c _ hc ih =>
      have hlt := Nat.lt_of_lt_of_le (h.lt_child hc) hle
      refine (ih (Nat.le_of_lt hlt)).child ?_
      rw [f.mem_childrenOf_graft h, if_neg (Nat.ne_of_lt hlt)]
      exact hc
  exact key f.live (Nat.le_refl _)

end Fitting

/-- A fitting replacement keeps an arena well formed. -/
theorem WellFormed.graft (h : a.WellFormed) (f : a.Fitting parent target replacement) :
    (a.graft parent target replacement).WellFormed where
  root_data := by rw [data?_graft, h.root_data]
  root_parent := by
    have hr : root ≠ replacement := Nat.ne_of_lt (Nat.zero_lt_of_lt (f.target_lt h))
    rw [f.parent?_graft h, if_neg hr, h.root_parent, ite_self]
  lt_child {x c} hc := by
    rw [f.mem_childrenOf_graft h] at hc
    split at hc
    · next hx =>
      subst hx
      rcases hc with rfl | ⟨hc, -⟩
      · exact f.parent_lt h
      · exact h.lt_child hc
    · exact h.lt_child hc
  child_lt {x c} hc := by
    rw [size_graft]
    rw [f.mem_childrenOf_graft h] at hc
    split at hc
    · rcases hc with rfl | ⟨hc, -⟩
      · exact f.lt_size h
      · exact h.child_lt hc
    · exact h.child_lt hc
  nodup x := by
    rw [f.childrenOf_graft h]
    split
    · exact (h.nodup parent).set (f.not_mem_parent h)
    · exact h.nodup x
  mem_of_parent {p c} hp := by
    rw [f.parent?_graft h] at hp
    rw [f.mem_childrenOf_graft h]
    split at hp
    · next hc =>
      injection hp with hp
      rw [if_pos hp.symm]
      exact .inl hc
    · split at hp
      · cases hp
      · next hct =>
        have hm := h.mem_of_parent hp
        split
        · next hpp => exact .inr ⟨hpp ▸ hm, hct⟩
        · exact hm
  parent_of_live {p c} hp hc := by
    obtain ⟨hpt, hl⟩ := f.live_graft h hp
    rw [f.parent?_graft h]
    rw [f.mem_childrenOf_graft h] at hc
    split at hc
    · next hpp =>
      subst hpp
      rcases hc with rfl | ⟨hc, hct⟩
      · rw [if_pos rfl]
      · have hcr : c ≠ replacement := by
          intro he
          exact f.not_mem_parent h (he ▸ hc)
        rw [if_neg hcr, if_neg hct, h.parent_of_live f.live hc]
    · next hpp =>
      rcases hl with hl | ⟨hs, rfl⟩
      · have hcr : c ≠ replacement := by
          intro he
          exact f.not_mem h hl hpt (he ▸ hc)
        have hct : c ≠ target := by
          intro he
          exact hpp (h.live_unique hl f.live (he ▸ hc) f.mem)
        rw [if_neg hcr, if_neg hct, h.parent_of_live hl hc]
      · rw [hs.no_children] at hc
        cases hc
  admits {x data} hd := by
    rw [data?_graft] at hd
    rw [f.childrenOf_graft h]
    split
    · next hx =>
      subst hx
      rw [List.length_set]
      exact h.admits hd
    · exact h.admits hd
  slots hc := slots_graft (f.parent_lt_size h) h.slots f.slot hc

namespace Fitting

variable (h : a.WellFormed) (f : a.Fitting parent target replacement)
include h f

/-! ## Acceptance -/

/-- A replacement that fits is not refused. -/
theorem mayReplace : a.MayReplace parent target replacement where
  lt_size := f.lt_size h
  child := h.hasChild_iff.2 ⟨f.live, f.mem⟩
  slot := f.slot
  ne_target := Nat.ne_of_gt (f.target_lt h)
  ne_root := Nat.ne_of_gt (Nat.zero_lt_of_lt (f.target_lt h))
  owner := f.owner h
  linked _ hc := .inl (f.linked h hc)

/-- The children of a replacement name it as their parent already. -/
theorem adoptChildren_graft : (a.graft parent target replacement).adoptChildren replacement =
    a.graft parent target replacement := by
  apply adoptChildren_eq_self
  intro c hc
  rw [f.mem_childrenOf_graft h, if_neg (Nat.ne_of_gt (f.parent_lt h))] at hc
  have hlt : replacement < c := h.lt_child hc
  have hct : c ≠ target := Nat.ne_of_gt (Nat.lt_trans (f.target_lt h) hlt)
  rw [f.parent?_graft h, if_neg (Nat.ne_of_gt hlt), if_neg hct, f.linked h hc]

/-- A fitting replacement is accepted and leaves the graft. -/
theorem replaceChild_eq :
    a.replaceChild parent target replacement = .ok (a.graft parent target replacement) :=
  replaceChild_eq_ok_iff.2 ⟨f.mayReplace h, (f.adoptChildren_graft h).symm⟩

/-! ## Undoing -/

/-- The graft accepts the opposite replacement. The replacement may be among the children of the
node that it gives its place back to, and that is the one child whose parent is another node. -/
theorem mayReplace_graft :
    (a.graft parent target replacement).MayReplace parent replacement target where
  lt_size := by
    rw [size_graft]
    exact f.target_lt_size h
  child := by
    rw [(h.graft f).hasChild_iff, f.mem_childrenOf_graft h, if_pos rfl]
    exact ⟨f.live_parent_graft h, .inl rfl⟩
  slot := by
    rw [slotTakes_congr fun _ => data?_graft, f.childrenOf_graft h, if_pos rfl,
      List.idxOf_set_idxOf f.mem (f.not_mem_parent h)]
    exact h.slots (List.getElem?_idxOf f.mem)
  ne_target := Nat.ne_of_lt (f.target_lt h)
  ne_root := Nat.ne_of_gt (Nat.zero_lt_of_lt (f.parent_lt_target h))
  owner := by
    rw [f.parent?_graft h, if_neg (Nat.ne_of_lt (f.target_lt h)), if_pos rfl]
    exact .inl rfl
  linked c hc := by
    rw [f.childrenOf_graft h, if_neg (Nat.ne_of_gt (f.parent_lt_target h))] at hc
    have hct : c ≠ target := Nat.ne_of_gt (h.lt_child hc)
    by_cases hcr : c = replacement
    · exact .inr hcr
    · rw [f.parent?_graft h, if_neg hcr, if_neg hct]
      exact .inl (h.parent_of_live f.live_target hc)

/-- Replacing the replacement by the first node gives the lists of children back. -/
theorem childrenOf_graft_graft :
    ((a.graft parent target replacement).graft parent replacement target).childrenOf x =
      a.childrenOf x := by
  have hp : parent < (a.graft parent target replacement).size := by
    rw [size_graft]
    exact f.parent_lt_size h
  rw [Arena.childrenOf_graft hp, f.childrenOf_graft h, f.childrenOf_graft h, if_pos rfl,
    List.set_idxOf_set_idxOf (f.not_mem_parent h)]
  split
  · next hx => rw [hx]
  · rfl

/-- Exchanging the two nodes and letting the first adopt its children gives the arena back. -/
theorem adoptChildren_graft_graft :
    ((a.graft parent target replacement).graft parent replacement target).adoptChildren target =
      a := by
  refine ext_fields (fun x => ?_) (fun x => ?_) fun x => ?_
  · rw [data?_adoptChildren, data?_graft, data?_graft]
  · rw [childrenOf_adoptChildren, f.childrenOf_graft_graft h]
  · rw [(f.mayReplace_graft h).parent?_adoptChildren_graft, f.childrenOf_graft_graft h,
      f.parent?_graft h]
    split
    · next hx => rw [h.parent_of_live f.live_target hx]
    · next hx =>
      split
      · next hxt => rw [hxt, f.parent?_target h]
      · split
        · next hxr =>
          rcases f.source with hc | ⟨hs, -⟩
          · exact absurd (hxr ▸ hc) hx
          · rw [hxr, hs.no_parent]
        · rfl

/-- Exchanging the two nodes undoes a fitting replacement. -/
theorem replaceChild_graft :
    (a.graft parent target replacement).replaceChild parent replacement target = .ok a :=
  replaceChild_eq_ok_iff.2 ⟨f.mayReplace_graft h, (f.adoptChildren_graft_graft h).symm⟩

end Fitting

end

end ShaderShrink.Arena

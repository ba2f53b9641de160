import ShaderShrink.Proofs.Arena.Reading
import ShaderShrink.Proofs.Program.Place

/-!
# Positions in arenas

`Arena.nodeAt` follows a position down the child lists, and what it finds is the node of the part
that the outline has there (`Outline.At.part`).

An edit gives one node a new list of children and leaves all others alone. Every part that the node
is not below is shown as before, since a part shows nothing but what is below it
(`Outline.At.of_same`); and as the live nodes form a tree, this is so of every part beside the way
to the node. So the outline of the root changes at the position of the node and nowhere else
(`Outline.At.splice`), although all parts share one arena.
-/

namespace ShaderShrink

namespace Arena

/-- The node to which a position leads from another one. -/
def nodeAt (a : Arena) (id : NodeId) : List Nat → Option NodeId
  | [] => some id
  | i :: path => (a.childrenOf id)[i]?.bind fun c => a.nodeAt c path

section
variable {a : Arena} {x y : Nat} {i : Nat} {path more : List Nat}

/-- A path leads through the child at its first place. -/
theorem nodeAt_cons_eq_some_iff :
    a.nodeAt x (i :: path) = some y ↔
      ∃ c, (a.childrenOf x)[i]? = some c ∧ a.nodeAt c path = some y := by
  rw [nodeAt, Option.bind_eq_some_iff]

/-- A path that goes on leads on from where its front leads. -/
theorem nodeAt_append (h : a.nodeAt x path = some y) :
    a.nodeAt x (path ++ more) = a.nodeAt y more := by
  induction path generalizing x with
  | nil =>
    cases h
    rfl
  | cons k path ih =>
    obtain ⟨c, hc, h⟩ := nodeAt_cons_eq_some_iff.1 h
    rw [List.cons_append, nodeAt, hc, Option.bind_some, ih h]

/-- The node at a position is a child of the node at the position above it. -/
theorem exists_nodeAt_of_append (h : a.nodeAt x (path ++ [i]) = some y) :
    ∃ z, a.nodeAt x path = some z ∧ (a.childrenOf z)[i]? = some y := by
  induction path generalizing x with
  | nil =>
    obtain ⟨c, hc, hy⟩ := nodeAt_cons_eq_some_iff.1 h
    cases hy
    exact ⟨x, rfl, hc⟩
  | cons k path ih =>
    obtain ⟨c, hc, h⟩ := nodeAt_cons_eq_some_iff.1 h
    obtain ⟨z, hz, hy⟩ := ih h
    exact ⟨z, nodeAt_cons_eq_some_iff.2 ⟨c, hc, hz⟩, hy⟩

/-- Positions lead to what is below. -/
theorem below_of_nodeAt (h : a.nodeAt x path = some y) : a.Below x y := by
  induction path generalizing x with
  | nil =>
    cases h
    exact .self
  | cons k path ih =>
    obtain ⟨c, hc, h⟩ := nodeAt_cons_eq_some_iff.1 h
    exact (Below.self.child (List.mem_of_getElem? hc)).trans (ih h)

/-- There is a position for all that is below. -/
theorem Below.exists_nodeAt (h : a.Below x y) : ∃ path, a.nodeAt x path = some y := by
  induction h with
  | self => exact ⟨[], rfl⟩
  | @child p c _ hc ih =>
    obtain ⟨path, hpath⟩ := ih
    obtain ⟨i, hi⟩ := List.mem_iff_getElem?.1 hc
    refine ⟨path ++ [i], ?_⟩
    rw [nodeAt_append hpath]
    exact nodeAt_cons_eq_some_iff.2 ⟨c, hi, rfl⟩

/-- The arena `b` is `a` with the child `i` of `parent` having given way to the nodes `news`. -/
structure Spliced (a b : Arena) (parent i : Nat) (news : List NodeId) : Prop where
  data {x : Nat} {data : Payload} : a.data? x = some data → b.data? x = some data
  others {x : Nat} : x ≠ parent → b.childrenOf x = a.childrenOf x
  children : b.childrenOf parent =
    (a.childrenOf parent).take i ++ news ++ (a.childrenOf parent).drop (i + 1)

/-- Numbers grow on the way down. -/
theorem WellFormed.le_of_below (h : a.WellFormed) (hxy : a.Below x y) : x ≤ y := by
  induction hxy with
  | self => exact Nat.le_refl x
  | child _ hc ih => exact Nat.le_of_lt (Nat.lt_of_le_of_lt ih (h.lt_child hc))

end

end Arena

namespace Outline

section
variable {a b : Arena} {t : Outline} {ts us : List Outline} {id x : Nat} {ids news : List NodeId}
  {i k parent : Nat} {path : List Nat}

/-- A position leads to the node of the part that the outline has there. -/
theorem At.part (h : t.At a id) (hx : a.nodeAt id path = some x) :
    ∃ u, t.part? path = some u ∧ u.At a x := by
  induction path generalizing t id with
  | nil =>
    cases hx
    exact ⟨t, rfl, h⟩
  | cons k path ih =>
    obtain ⟨data, parts⟩ := t
    obtain ⟨c, hc, hx⟩ := Arena.nodeAt_cons_eq_some_iff.1 hx
    have hlen : k < parts.length := by
      rw [AllAt.length_eq h.2]
      exact (List.getElem?_eq_some_iff.1 hc).1
    obtain ⟨c', hc', hv⟩ := h.2.exists_getElem? (List.getElem?_eq_getElem hlen)
    rw [hc] at hc'
    cases hc'
    obtain ⟨u, hu, hat⟩ := ih hv hx
    exact ⟨u, part?_cons_eq_some_iff.2 ⟨_, List.getElem?_eq_getElem hlen, hu⟩, hat⟩

/-- A node has as many children as the outline has parts. -/
theorem At.length_parts (h : t.At a id) : t.parts.length = (a.childrenOf id).length := by
  obtain ⟨data, parts⟩ := t
  exact h.2.length_eq

/-- The part at a position has the form of the node at that position. -/
theorem At.of_part {u : Outline} (h : t.At a id) (hu : t.part? path = some u)
    (hx : a.nodeAt id path = some x) : u.At a x := by
  obtain ⟨v, hv, hat⟩ := h.part hx
  cases hu.symm.trans hv
  exact hat

/-- Outlines one after another are read at the numbers one after another. -/
theorem AllAt.append (ht : AllAt a ts ids) (hu : AllAt a us news) :
    AllAt a (ts ++ us) (ids ++ news) :=
  allAt_iff.2 (List.rel_append (allAt_iff.1 ht) (allAt_iff.1 hu))

/-- The first outlines are read at the first numbers. -/
theorem AllAt.take (h : AllAt a ts ids) (n : Nat) : AllAt a (ts.take n) (ids.take n) :=
  allAt_iff.2 (List.forall₂_take n (allAt_iff.1 h))

/-- The last outlines are read at the last numbers. -/
theorem AllAt.drop (h : AllAt a ts ids) (n : Nat) : AllAt a (ts.drop n) (ids.drop n) :=
  allAt_iff.2 (List.forall₂_drop n (allAt_iff.1 h))

mutual

/-- An outline shows nothing but what is below its node. -/
theorem At.of_same (hd : ∀ x data, a.data? x = some data → b.data? x = some data) :
    ∀ {t : Outline} {id : NodeId}, t.At a id →
      (∀ x, a.Below id x → b.childrenOf x = a.childrenOf x) → t.At b id
  | .node _ _, id, h, hsame => by
    refine ⟨hd id _ h.1, ?_⟩
    rw [hsame id .self]
    refine AllAt.of_same hd h.2 fun c hc x hx => ?_
    exact hsame x ((Arena.Below.self.child hc).trans hx)

/-- Outlines are read in another arena that is the same below their tops. -/
theorem AllAt.of_same (hd : ∀ x data, a.data? x = some data → b.data? x = some data) :
    ∀ {ts : List Outline} {ids : List NodeId}, AllAt a ts ids →
      (∀ c ∈ ids, ∀ x, a.Below c x → b.childrenOf x = a.childrenOf x) → AllAt b ts ids
  | [], _, h, _ => h
  | _ :: _, _, ⟨c, more, he, ht, hrest⟩, hsame => by
    subst he
    refine ⟨c, more, rfl, At.of_same hd ht (hsame c List.mem_cons_self), ?_⟩
    exact AllAt.of_same hd hrest fun d hm => hsame d (List.mem_cons_of_mem _ hm)

end

mutual

/-- A node has one outline. -/
theorem At.unique : ∀ {t u : Outline} {id : NodeId}, t.At a id → u.At a id → t = u
  | .node _ ts, .node _ us, _, ht, hu => by
    obtain rfl := Option.some.inj (ht.1.symm.trans hu.1)
    rw [AllAt.unique ht.2 hu.2]

/-- There is one way to read the outlines at some numbers. -/
theorem AllAt.unique : ∀ {ts us : List Outline} {ids : List NodeId}, AllAt a ts ids →
    AllAt a us ids → ts = us
  | [], us, _, ht, hu => by
    rw [ht] at hu
    exact (List.length_eq_zero_iff.1 hu.length_eq).symm
  | t :: ts, us, _, ⟨c, more, he, ht, hts⟩, hu => by
    subst he
    match us, hu with
    | [], hu => cases hu
    | u :: us, ⟨_, _, he, hu, hus⟩ =>
      cases he
      rw [At.unique ht hu, AllAt.unique hts hus]

end

/-- Nodes that the changed node is not below show what they showed. -/
theorem AllAt.of_spliced (hs : a.Spliced b parent i news) (h : AllAt a ts ids)
    (hbelow : ∀ c ∈ ids, ¬ a.Below c parent) : AllAt b ts ids := by
  refine h.of_same (fun _ _ => hs.data) fun c hc x hx => hs.others ?_
  rintro rfl
  exact hbelow c hc hx

/-- Where the child of a node gives way, the outline of every node above changes at the position of
the child and nowhere else. -/
theorem At.splice (hw : a.WellFormed) (hs : a.Spliced b parent i news) (hnews : AllAt b us news)
    (hlive : a.Live id) (h : t.At a id) (hpath : a.nodeAt id path = some parent) :
    (t.splice us i path).At b id := by
  induction path generalizing t id with
  | nil =>
    cases hpath
    obtain ⟨data, parts⟩ := t
    have hbelow : ∀ c ∈ a.childrenOf parent, ¬ a.Below c parent := by
      intro c hc hcp
      exact absurd (hw.le_of_below hcp) (Nat.not_le.2 (hw.lt_child hc))
    refine ⟨hs.data h.1, ?_⟩
    rw [hs.children]
    refine ((AllAt.of_spliced hs (h.2.take i) ?_).append hnews).append
      (AllAt.of_spliced hs (h.2.drop (i + 1)) ?_)
    · exact fun c hc => hbelow c (List.mem_of_mem_take hc)
    · exact fun c hc => hbelow c (List.mem_of_mem_drop hc)
  | cons k path ih =>
    obtain ⟨data, parts⟩ := t
    obtain ⟨c, hc, hpath⟩ := Arena.nodeAt_cons_eq_some_iff.1 hpath
    have hmem := List.mem_of_getElem? hc
    have hcp := Arena.below_of_nodeAt hpath
    have hne : id ≠ parent :=
      Nat.ne_of_lt (Nat.lt_of_lt_of_le (hw.lt_child hmem) (hw.le_of_below hcp))
    -- the node is below the child on the way and below no other one
    obtain ⟨hk, rfl⟩ := List.getElem?_eq_some_iff.1 hc
    have hids : a.childrenOf id =
        (a.childrenOf id).take k ++ (a.childrenOf id)[k] :: (a.childrenOf id).drop (k + 1) := by
      rw [← List.drop_eq_getElem_cons hk, List.take_append_drop]
    have hnd := hids ▸ hw.nodup id
    obtain ⟨-, hnd₂, hdisjoint⟩ := List.nodup_append.1 hnd
    have hbeside : ∀ d ∈ a.childrenOf id, a.Below d parent → d = (a.childrenOf id)[k] :=
      fun d hd hdp => hw.rooted.child_unique hlive hd hmem hdp hcp
    have hk' : k < parts.length := by rwa [h.2.length_eq]
    have hu : parts[k]? = some parts[k] := List.getElem?_eq_getElem hk'
    have hat : (parts[k]).At a (a.childrenOf id)[k] := (allAt_iff.1 h.2).get hk' hk
    refine ⟨hs.data h.1, ?_⟩
    rw [hs.others hne, modify_eq_take_append_drop _ hu, hids]
    refine (AllAt.of_spliced hs (h.2.take k) ?_).append
      ⟨_, _, rfl, ih (hlive.child hmem) hat hpath, AllAt.of_spliced hs (h.2.drop (k + 1)) ?_⟩
    · intro d hd hdp
      have := hbeside d (List.mem_of_mem_take hd) hdp
      exact hdisjoint d hd _ List.mem_cons_self this
    · intro d hd hdp
      have := hbeside d (List.mem_of_mem_drop hd) hdp
      exact (List.nodup_cons.1 hnd₂).1 (this ▸ hd)

end

end Outline

end ShaderShrink

import ShaderShrink.Proofs.Arena.Calls
import ShaderShrink.Proofs.Arena.Splice

/-!
# Arenas in which no node is below itself

`Arena.Acyclic` says of all nodes, the detached ones included, that no child leads back to the node
that lists it. Ways down are then shorter than the arena is large (`Acyclic.lt_size`).

A call adds at most one entry to a child list. A way down that is new goes through that entry
(`below_of_added`), so nothing comes to be below itself unless the node that is listed leads to the
node that lists it already (`Acyclic.add`). A replacement never does this: the parent is live, and a
replacement above it would be live itself (`MayReplace.not_below_parent`). An insertion may do it,
since detached nodes can be put into one another (`ArenaCall.nests`). All other calls keep the arena
acyclic (`Linked.acyclic_run`).
-/

namespace ShaderShrink

namespace Arena

/-- No node is below one of its children. -/
def Acyclic (a : Arena) : Prop := ∀ ⦃x c : NodeId⦄, c ∈ a.childrenOf x → ¬ a.Below c x

section
variable {a b : Arena} {x y p c r parent target replacement child : NodeId} {n index : Nat}

/-- Where all children are children of another arena, what is below is below there. -/
theorem Below.mono (hc : ∀ {x c : NodeId}, c ∈ b.childrenOf x → c ∈ a.childrenOf x)
    (h : b.Below x y) : a.Below x y := by
  induction h with
  | self => exact .self
  | child _ hm ih => exact ih.child (hc hm)

/-- Fewer links do not make circles. -/
theorem Acyclic.mono (h : a.Acyclic)
    (hc : ∀ {x c : NodeId}, c ∈ b.childrenOf x → c ∈ a.childrenOf x) : b.Acyclic :=
  fun _ _ hm hcx => h (hc hm) (hcx.mono hc)

/-- A way down that is not in an arena goes through the entry that the arena lacks. -/
theorem below_of_added
    (hc : ∀ {x c : NodeId}, c ∈ b.childrenOf x → c ∈ a.childrenOf x ∨ x = p ∧ c = r)
    (h : b.Below x y) : a.Below x y ∨ a.Below x p ∧ a.Below r y := by
  induction h with
  | self => exact .inl .self
  | child _ hm ih =>
    rcases hc hm with hm | ⟨rfl, rfl⟩
    · rcases ih with ih | ⟨hxp, hry⟩
      · exact .inl (ih.child hm)
      · exact .inr ⟨hxp, hry.child hm⟩
    · rcases ih with ih | ⟨hxp, -⟩
      · exact .inr ⟨ih, .self⟩
      · exact .inr ⟨hxp, .self⟩

/-- A node that does not lead to another one may be listed there. -/
theorem Acyclic.add (h : a.Acyclic)
    (hc : ∀ {x c : NodeId}, c ∈ b.childrenOf x → c ∈ a.childrenOf x ∨ x = p ∧ c = r)
    (hrp : ¬ a.Below r p) : b.Acyclic := by
  intro x c hm hcx
  rcases hc hm with hm | ⟨rfl, rfl⟩
  · rcases below_of_added hc hcx with hcx | ⟨hcp, hrx⟩
    · exact h hm hcx
    · exact hrp ((hrx.child hm).trans hcp)
  · rcases below_of_added hc hcx with hcx | ⟨-, hcx⟩
    · exact hrp hcx
    · exact hrp hcx

/-! ## The length of a way down -/

/-- The way to a node below visits no node twice. -/
theorem Acyclic.exists_way (h : a.Acyclic) (hn : a.BelowIn x n y) :
    ∃ way : List NodeId, way.length = n + 1 ∧ way.Nodup ∧ ∀ z ∈ way, a.Below x z := by
  induction n generalizing x with
  | zero =>
    refine ⟨[x], rfl, List.nodup_singleton x, ?_⟩
    rw [List.forall_mem_singleton]
    exact .self
  | succ n ih =>
    obtain ⟨c, hc, hn⟩ := belowIn_succ_iff.1 hn
    obtain ⟨way, hlen, hnd, hway⟩ := ih hn
    refine ⟨x :: way, by rw [List.length_cons, hlen], List.nodup_cons.2 ⟨?_, hnd⟩, ?_⟩
    · exact fun hx => h hc (hway x hx)
    · exact List.forall_mem_cons.2 ⟨.self, fun z hz => (Below.self.child hc).trans (hway z hz)⟩

/-- There are more nodes than steps on a way down. -/
theorem Acyclic.lt_size (h : a.Acyclic)
    (hlt : ∀ {x c : NodeId}, c ∈ a.childrenOf x → c < a.size) (hx : x < a.size)
    (hn : a.BelowIn x n y) : n < a.size := by
  obtain ⟨way, hlen, hnd, hway⟩ := h.exists_way hn
  have hsub : way ⊆ List.range a.size := by
    intro z hz
    rw [List.mem_range]
    cases hway z hz with
    | self => exact hx
    | child _ hc => exact hlt hc
  have := (hnd.subperm hsub).length_le
  rw [hlen, List.length_range] at this
  exact this

/-! ## Calls -/

/-- In the arena of a program numbers grow on the way down. -/
theorem WellFormed.acyclic (h : a.WellFormed) : a.Acyclic := by
  intro x c hc hcx
  have hlt := h.lt_child hc
  have hle := h.le_of_below hcx
  omega

/-- The parent of a live node is live. -/
theorem Linked.live_of_parent (h : a.Linked) (hc : a.Live c) (hp : a.parent? c = some p) :
    a.Live p := by
  cases hc with
  | self =>
    rw [h.root_parent] at hp
    cases hp
  | child hq hcq =>
    have hq' := h.parent_of_placed (h.placed hq) hcq
    rw [hp] at hq'
    injection hq' with hq'
    exact hq' ▸ hq

/-- What is above a live node is live, as far as it is placed. -/
theorem Linked.live_of_below (h : a.Linked) (hx : a.Placed x) (hxy : a.Below x y)
    (hy : a.Live y) : a.Live x := by
  have placed {z : NodeId} (hz : a.Below x z) : a.Placed z := by
    induction hz with
    | self => exact hx
    | child _ hc ih => exact .inr ⟨_, h.parent_of_placed ih hc⟩
  induction hxy with
  | self => exact hy
  | child hp hc ih => exact ih (h.live_of_parent hy (h.parent_of_placed (placed hp) hc))

/-- The node under which a replacement is done is not below the replacement. -/
theorem MayReplace.not_below_parent (h : a.Linked) (m : a.MayReplace parent target replacement) :
    ¬ a.Below replacement parent := by
  have htp : ¬ a.Below target parent := h.rooted.not_below_of_mem m.live_parent m.mem
  intro hrp
  rcases m.owner with ho | ho
  · -- the first step leads to a child that is placed, so the replacement is its parent and live
    obtain ⟨n, hn⟩ := below_iff.1 hrp
    cases n with
    | zero =>
      cases hn
      exact m.replacement_ne_parent h rfl
    | succ n =>
      obtain ⟨c, hc, hcp⟩ := belowIn_succ_iff.1 hn
      rcases m.linked c hc with hlink | rfl
      · have hlive := h.live_of_below (.inr ⟨_, hlink⟩) hcp.toBelow m.live_parent
        rcases h.placed (h.live_of_parent hlive hlink) with hr | ⟨q, hq⟩
        · exact m.ne_root hr
        · rw [ho] at hq
          cases hq
      · exact htp hcp.toBelow
  · exact htp ((Below.self.child (h.mem_of_parent ho)).trans hrp)

end

end Arena

namespace ArenaCall

/-- Whether a call puts a node into a child list at or below that node. -/
def nests (a : Arena) : ArenaCall → Bool
  | .insertChild parent index child =>
    (a.insertChild parent index child).isOk && (a.walk (a.size + 1) child).contains parent
  | _ => false

/-- Whether none of some calls puts a node into a child list at or below that node. -/
def noneNests (a : Arena) : List ArenaCall → Bool
  | [] => true
  | call :: rest => !call.nests a && noneNests (call.run a) rest

end ArenaCall

namespace Arena

section
variable {a : Arena} {call : ArenaCall} {calls : List ArenaCall}

/-- A call keeps a linked arena acyclic, if it does not put a node at or below itself. -/
theorem Linked.acyclic_run (h : a.Linked) (hac : a.Acyclic) (hn : call.nests a = false) :
    (call.run a).Acyclic := by
  cases call with
  | alloc data => exact hac.mono fun hc => childrenOf_alloc ▸ hc
  | replaceChild parent target replacement =>
    rw [ArenaCall.run]
    split
    · next a' he =>
      obtain ⟨m, rfl⟩ := replaceChild_eq_ok_iff.1 he
      refine hac.add (fun {x c} hc => ?_) (m.not_below_parent h)
      rw [m.mem_childrenOf_after h] at hc
      split at hc
      · next hx =>
        rcases hc with rfl | ⟨hc, -⟩
        · exact .inr ⟨hx, rfl⟩
        · exact .inl (hx ▸ hc)
      · exact .inl hc
    · exact hac
  | removeChild parent child =>
    rw [ArenaCall.run]
    split
    · next a' _ he =>
      obtain ⟨-, hc, rfl, -⟩ := removeChild_eq_ok_iff.1 he
      have hp := lt_size_of_mem_childrenOf (hasChild_iff.1 hc).2.1
      exact hac.mono fun hm => ((mem_childrenOf_prune hp (h.nodup parent)).1 hm).1
    · exact hac
  | insertChild parent index child =>
    rw [ArenaCall.run]
    split
    · next a' he =>
      rw [ArenaCall.nests, he] at hn
      obtain ⟨m, rfl⟩ := insertChild_eq_ok_iff.1 he
      have hcp : ¬ a.Below child parent := by
        -- a way to the parent would be short enough to be found
        intro hcp
        obtain ⟨k, hk⟩ := below_iff.1 hcp
        have hlt := hac.lt_size (fun hc => h.child_lt hc) m.child_lt_size hk
        have hw := mem_walk_iff.2 ⟨k, Nat.lt_succ_of_lt hlt, hk⟩
        simp [Except.isOk, Except.toBool, hw] at hn
      refine hac.add (fun hc => ?_) hcp
      exact ((mem_childrenOf_plant m.parent_lt_size m.index_le).1 hc).symm
    · exact hac

/-- Calls keep a linked arena linked and acyclic, if none of them lists a node twice or puts one at
or below itself. -/
theorem Linked.acyclic_runAll (h : a.Linked) (hac : a.Acyclic)
    (hr : ArenaCall.noneRelists a calls = true) (hn : ArenaCall.noneNests a calls = true) :
    (ArenaCall.runAll a calls).Acyclic := by
  induction calls generalizing a with
  | nil => exact hac
  | cons call rest ih =>
    rw [ArenaCall.noneRelists, Bool.and_eq_true, Bool.not_eq_true'] at hr
    rw [ArenaCall.noneNests, Bool.and_eq_true, Bool.not_eq_true'] at hn
    exact ih (h.run hr.1) (h.acyclic_run hac hn.1) hr.2 hn.2

end

end Arena

end ShaderShrink

import ShaderShrink.Proofs.Arena.Rooted
import ShaderShrink.Proofs.Program.Outline

/-!
# Well-formed arenas

`Arena.WellFormed` is the invariant of all arenas that come about by changes and by undoing them.
Its main clauses are that numbers grow from a node to its children, that every parent link is
answered by a child list, and that every child list of a *live* node is answered by parent links. A
detached node may go on listing nodes that have been attached elsewhere, which is why the last
clause is about live nodes only.

The live nodes of a well-formed arena form a tree (`WellFormed.rooted`), so walking up and walking
down agree on what is live.
-/

namespace ShaderShrink

namespace Arena

/-- The invariant of arenas. -/
structure WellFormed (a : Arena) : Prop where
  root_data : a.data? root = some .unit
  root_parent : a.parent? root = none
  lt_child {x c : Nat} : c ∈ a.childrenOf x → x < c
  child_lt {x c : Nat} : c ∈ a.childrenOf x → c < a.size
  nodup (x : NodeId) : (a.childrenOf x).Nodup
  mem_of_parent {p c : NodeId} : a.parent? c = some p → c ∈ a.childrenOf p
  parent_of_live {p c : NodeId} : a.Live p → c ∈ a.childrenOf p → a.parent? c = some p
  admits {x : NodeId} {data : Payload} :
    a.data? x = some data → data.admits (a.childrenOf x).length = true
  slots {x c : NodeId} {i : Nat} : (a.childrenOf x)[i]? = some c → a.SlotTakes x i c

namespace WellFormed

variable {a : Arena} {x y p c : Nat}

/-- There is a root. -/
theorem root_lt (h : a.WellFormed) : root < a.size := lt_size_of_data? h.root_data

/-- The live nodes of a well-formed arena form a tree. -/
theorem rooted (h : a.WellFormed) : a.Rooted where
  root_lt := h.root_lt
  root_parent := h.root_parent
  child_lt _ hc := h.child_lt hc
  nodup _ := h.nodup _
  parent_of_live hp hc := h.parent_of_live hp hc

/-- What is live is a node. -/
theorem lt_size_of_live (h : a.WellFormed) (hx : a.Live x) : x < a.size :=
  h.rooted.lt_size_of_live hx

/-- The root is nobody's child. -/
theorem root_not_mem (h : a.WellFormed) : root ∉ a.childrenOf x := fun hc =>
  Nat.not_lt_zero _ (h.lt_child hc)

/-- A node is a child of at most one live node. -/
theorem live_unique (h : a.WellFormed) (hx : a.Live x) (hy : a.Live y)
    (hcx : c ∈ a.childrenOf x) (hcy : c ∈ a.childrenOf y) : x = y :=
  h.rooted.live_unique hx hy hcx hcy

/-- In a well-formed arena the children of a live node are those that it lists. -/
theorem hasChild_iff (h : a.WellFormed) :
    a.hasChild p c = true ↔ a.Live p ∧ c ∈ a.childrenOf p :=
  h.rooted.hasChild_iff

/-- The walk from the root comes to the live nodes. -/
theorem mem_preorder_iff (h : a.WellFormed) : x ∈ a.preorder ↔ a.Live x :=
  h.rooted.mem_preorder_iff

/-- The walk from the root comes to every node once. -/
theorem nodup_preorder (h : a.WellFormed) : a.preorder.Nodup := h.rooted.nodup_preorder

end WellFormed

end Arena

end ShaderShrink

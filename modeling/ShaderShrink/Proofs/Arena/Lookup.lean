import Mathlib.Data.List.Nodup
import Mathlib.Tactic.Common
import ShaderShrink.Arena.Edit
import ShaderShrink.Proofs.Except

/-!
# Nodes by number

An arena is determined by the nodes under its numbers (`Arena.ext_get?`), so what a change of an
arena does is said by the nodes that are there afterwards. This module says it for the elementary
changes, of which edits consist: changing a node, setting a parent, making a node and adopting
children.
-/

namespace ShaderShrink.Arena

/-- The payload of the node with a number. -/
def data? (a : Arena) (id : NodeId) : Option Payload := (a.get? id).map Node.data

section
variable {a b : Arena} {id x y parent target replacement child : NodeId} {node : Node}
  {data : Payload} {index : Nat}

/-! ## Nodes by number -/

/-- Arenas with the same nodes under all numbers are the same. -/
theorem ext_get? (h : ∀ id, a.get? id = b.get? id) : a = b := by
  obtain ⟨xs⟩ := a
  obtain ⟨ys⟩ := b
  rw [mk.injEq]
  exact Array.ext_getElem? h

/-- There is a node under a number exactly if the number is below the size. -/
theorem lt_size_iff : x < a.size ↔ ∃ node, a.get? x = some node := by
  rw [← Option.isSome_iff_exists, get?, size, isSome_getElem?]

/-- A node that is found has a number below the size. -/
theorem lt_size_of_get? (h : a.get? x = some node) : x < a.size := lt_size_iff.2 ⟨_, h⟩

/-- No node has a number from the size on. -/
theorem get?_eq_none_iff : a.get? x = none ↔ a.size ≤ x := Array.getElem?_eq_none_iff

/-- A payload is that of a node. -/
theorem lt_size_of_data? (h : a.data? x = some data) : x < a.size := by
  obtain ⟨node, hn, -⟩ := Option.map_eq_some_iff.1 h
  exact lt_size_of_get? hn

/-- Every node has a payload. -/
theorem exists_data? (h : x < a.size) : ∃ data, a.data? x = some data := by
  obtain ⟨node, hn⟩ := lt_size_iff.1 h
  exact ⟨node.data, by rw [data?, hn]; rfl⟩

/-- The payload of a node that was found. -/
theorem data?_of_get? (h : a.get? x = some node) : a.data? x = some node.data := by
  rw [data?, h]; rfl

/-- The children of a node that was found. -/
theorem childrenOf_of_get? (h : a.get? x = some node) : a.childrenOf x = node.children := by
  rw [childrenOf, h]; rfl

/-- The parent of a node that was found. -/
theorem parent?_of_get? (h : a.get? x = some node) : a.parent? x = node.parent := by
  rw [parent?, h]; rfl

/-- Where there is no node there are no children. -/
theorem childrenOf_of_size_le (h : a.size ≤ x) : a.childrenOf x = [] := by
  rw [childrenOf, get?_eq_none_iff.2 h]; rfl

/-- Where there is no node there is no parent. -/
theorem parent?_of_size_le (h : a.size ≤ x) : a.parent? x = none := by
  rw [parent?, get?_eq_none_iff.2 h]; rfl

/-- Nodes with children exist. -/
theorem lt_size_of_mem_childrenOf (h : y ∈ a.childrenOf x) : x < a.size := by
  by_contra hx
  rw [childrenOf_of_size_le (Nat.le_of_not_lt hx)] at h
  cases h

/-- What has a parent is a node. -/
theorem lt_size_of_parent? (h : a.parent? x = some y) : x < a.size := by
  by_contra hx
  rw [parent?_of_size_le (Nat.le_of_not_lt hx)] at h
  cases h

/-- A node is put together from its payload, its children and its parent. -/
theorem get?_eq_some_iff : a.get? x = some node ↔
    a.data? x = some node.data ∧ a.childrenOf x = node.children ∧ a.parent? x = node.parent := by
  constructor
  · exact fun h => ⟨data?_of_get? h, childrenOf_of_get? h, parent?_of_get? h⟩
  · rintro ⟨hd, hc, hp⟩
    obtain ⟨node', hn⟩ := lt_size_iff.1 (lt_size_of_data? hd)
    rw [data?_of_get? hn, Option.some_inj] at hd
    rw [childrenOf_of_get? hn] at hc
    rw [parent?_of_get? hn] at hp
    rw [hn]
    obtain ⟨_, _, _⟩ := node'
    obtain ⟨_, _, _⟩ := node
    cases hd; cases hc; cases hp
    rfl

/-- Looking a node up succeeds where there is one. -/
theorem find_eq_ok_iff : a.find x = .ok node ↔ a.get? x = some node := by
  unfold find
  split <;> simp_all

/-! ## Elementary changes -/

/-- Changing a node makes no new ones. -/
@[simp] theorem size_modify (f : Node → Node) : (a.modify id f).size = a.size :=
  Array.size_modify

/-- Changing a node leaves the others as they are. -/
theorem get?_modify (f : Node → Node) :
    (a.modify id f).get? x = if id = x then (a.get? x).map f else a.get? x :=
  Array.getElem?_modify

/-- A new parent link makes no new nodes. -/
@[simp] theorem size_setParent (p : Option NodeId) : (a.setParent id p).size = a.size :=
  size_modify _

/-- What changes a node may be told apart by what it does to that node. -/
theorem modify_congr {f g : Node → Node} (hn : a.get? id = some node) (h : f node = g node) :
    a.modify id f = a.modify id g := by
  refine ext_get? fun x => ?_
  rw [get?_modify, get?_modify]
  split
  · next hx =>
    subst hx
    rw [hn, Option.map_some, Option.map_some, h]
  · rfl

/-- A new parent link leaves the other nodes as they are. -/
theorem get?_setParent (p : Option NodeId) : (a.setParent id p).get? x =
    if id = x then (a.get? x).map fun node => { node with parent := p } else a.get? x :=
  get?_modify _

/-- One node is made at a time. -/
@[simp] theorem size_alloc : (a.alloc data).1.size = a.size + 1 := Array.size_push _

/-- The node that is made comes behind the others. -/
theorem get?_alloc :
    (a.alloc data).1.get? x = if x = a.size then some ⟨data, [], none⟩ else a.get? x :=
  Array.getElem?_push

/-- The nodes that there are stay as they are when one is made. -/
theorem get?_alloc_of_lt (h : x < a.size) : (a.alloc data).1.get? x = a.get? x := by
  rw [get?_alloc, if_neg (Nat.ne_of_lt h)]

/-- The node that is made has no children and no parent. -/
theorem get?_alloc_size : (a.alloc data).1.get? a.size = some ⟨data, [], none⟩ := by
  rw [get?_alloc, if_pos rfl]

/-- The node that is made is nobody's child, and has no children itself. -/
theorem childrenOf_alloc : (a.alloc data).1.childrenOf x = a.childrenOf x := by
  by_cases h : x = a.size
  · subst h
    rw [childrenOf_of_get? get?_alloc_size, childrenOf_of_size_le (Nat.le_refl _)]
  · rw [childrenOf, get?_alloc, if_neg h, childrenOf]

/-- No parent changes when a node is made. -/
theorem parent?_alloc : (a.alloc data).1.parent? x = a.parent? x := by
  by_cases h : x = a.size
  · subst h
    rw [parent?_of_get? get?_alloc_size, parent?_of_size_le (Nat.le_refl _)]
  · rw [parent?, get?_alloc, if_neg h, parent?]

/-- The payloads that there are stay as they are when a node is made. -/
theorem data?_alloc_of_lt (h : x < a.size) : (a.alloc data).1.data? x = a.data? x := by
  rw [data?, get?_alloc_of_lt h, data?]

/-- The node that is made has its payload. -/
theorem data?_alloc :
    (a.alloc data).1.data? x = if x = a.size then some data else a.data? x := by
  rw [data?, get?_alloc]
  split <;> rfl

/-- Setting the same parent for some nodes, one after another. -/
theorem get?_foldl_setParent (p : Option NodeId) (ids : List NodeId) (a : Arena) :
    (ids.foldl (fun a child => a.setParent child p) a).get? x =
      if x ∈ ids then (a.get? x).map fun node => { node with parent := p } else a.get? x := by
  induction ids generalizing a with
  | nil => simp
  | cons id rest ih =>
    rw [List.foldl_cons, ih, get?_setParent]
    simp only [List.mem_cons, @eq_comm _ x id]
    by_cases hx : x ∈ rest <;> by_cases hid : id = x <;> simp [hx, hid, Function.comp_def]

/-- A node that adopts its children becomes their parent, and nothing else changes. -/
theorem get?_adoptChildren : (a.adoptChildren id).get? x =
    if x ∈ a.childrenOf id then (a.get? x).map fun node => { node with parent := some id }
    else a.get? x :=
  get?_foldl_setParent _ _ _

/-- Adopting children makes no new nodes. -/
@[simp] theorem size_adoptChildren : (a.adoptChildren id).size = a.size := by
  unfold adoptChildren
  generalize a.childrenOf id = ids
  induction ids generalizing a with
  | nil => rfl
  | cons child rest ih => rw [List.foldl_cons, ih, size_setParent]

/-- A node whose children name it as their parent has nothing to adopt. -/
theorem adoptChildren_eq_self (h : ∀ c ∈ a.childrenOf id, a.parent? c = some id) :
    a.adoptChildren id = a := by
  refine ext_get? fun x => ?_
  rw [get?_adoptChildren]
  split
  · next hx =>
    cases hn : a.get? x with
    | none => rfl
    | some node =>
      have hp := h x hx
      rw [parent?_of_get? hn] at hp
      simp [← hp]
  · rfl

end

end ShaderShrink.Arena

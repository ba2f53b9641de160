import ShaderShrink.Proofs.Arena.Linked

/-!
# The live tree under calls of the edits

`ArenaCall` is one call of the four edits, with whatever numbers it is given, and
`ArenaCall.runAll` a sequence of calls, of which the refused ones change nothing. From the arena of
a program, every such sequence leaves a tree of live nodes (`Arena.IsTree`), unless one of the calls
inserts a node where it is listed already (`ArenaCall.isTree_runAll`).

Such a call is possible: a node keeps its list of children when it is detached, and a child that was
detached in the meantime can then be inserted into the old list once more. The edits look at parent
links alone and let this pass, and attaching the parent brings the doubled child to life
(`ArenaCall.not_isTree_runAll`).
-/

namespace ShaderShrink

open Arena

/-- The live nodes form a tree, as far as readers of the arena can tell. -/
structure Arena.IsTree (a : Arena) : Prop where
  /-- Walking down from the root ends: more levels add nothing. -/
  ends {n : Nat} : a.size < n → a.walk n root = a.preorder
  nodup : a.preorder.Nodup
  /-- The parent link of a node names the one live node that lists it. -/
  parent {x : NodeId} : x ∈ a.preorder → x ≠ root →
    ∃ p ∈ a.preorder, a.parent? x = some p ∧ x ∈ a.childrenOf p ∧
      ∀ q ∈ a.preorder, x ∈ a.childrenOf q → q = p
  isLive_iff {x : NodeId} : a.isLive x = true ↔ x ∈ a.preorder
  slots {p c i : Nat} : p ∈ a.preorder → (a.childrenOf p)[i]? = some c → a.SlotTakes p i c

/-- A call of an edit. -/
inductive ArenaCall where
  | alloc (data : Payload)
  | replaceChild (parent target replacement : NodeId)
  | removeChild (parent child : NodeId)
  | insertChild (parent : NodeId) (index : Nat) (child : NodeId)
  deriving DecidableEq, Repr

namespace ArenaCall

/-- The arena behind a call. A call that is refused leaves the arena as it is. -/
def run (a : Arena) : ArenaCall → Arena
  | .alloc data => (a.alloc data).1
  | .replaceChild parent target replacement =>
    match a.replaceChild parent target replacement with
    | .ok a' => a'
    | .error _ => a
  | .removeChild parent child =>
    match a.removeChild parent child with
    | .ok (a', _) => a'
    | .error _ => a
  | .insertChild parent index child =>
    match a.insertChild parent index child with
    | .ok a' => a'
    | .error _ => a

/-- The arena behind some calls. -/
def runAll (a : Arena) (calls : List ArenaCall) : Arena := calls.foldl run a

/-- Whether a call puts a node into a child list that has it already. -/
def relists (a : Arena) : ArenaCall → Bool
  | .insertChild parent index child =>
    (a.insertChild parent index child).isOk && (a.childrenOf parent).contains child
  | _ => false

/-- Whether none of some calls puts a node into a child list that has it already. -/
def noneRelists (a : Arena) : List ArenaCall → Bool
  | [] => true
  | call :: rest => !call.relists a && noneRelists (call.run a) rest

end ArenaCall

section
variable {a : Arena} {call : ArenaCall} {calls : List ArenaCall}

/-- The live nodes of a linked arena form a tree for its readers. -/
theorem Arena.Linked.isTree (h : a.Linked) : a.IsTree where
  ends hn := h.rooted.walk_eq_preorder hn
  nodup := h.rooted.nodup_preorder
  parent {x} hx hr := by
    cases h.rooted.mem_preorder_iff.1 hx with
    | self => exact absurd rfl hr
    | @child p _ hp hc =>
      refine ⟨p, h.rooted.mem_preorder_iff.2 hp, h.rooted.parent_of_live hp hc, hc, ?_⟩
      intro q hq hcq
      exact h.rooted.live_unique (h.rooted.mem_preorder_iff.1 hq) hp hcq hc
  isLive_iff := h.rooted.isLive_iff.trans h.rooted.mem_preorder_iff.symm
  slots _ hc := h.slots hc

/-- A call keeps an arena linked, if it does not list a node twice. -/
theorem Arena.Linked.run (h : a.Linked) (hr : call.relists a = false) :
    (call.run a).Linked := by
  cases call with
  | alloc data => exact h.alloc
  | replaceChild parent target replacement =>
    rw [ArenaCall.run]
    split
    · next a' he =>
      obtain ⟨m, rfl⟩ := replaceChild_eq_ok_iff.1 he
      exact h.adoptChildren_graft m
    · exact h
  | removeChild parent child =>
    rw [ArenaCall.run]
    split
    · next a' _ he =>
      obtain ⟨hv, hc, rfl, -⟩ := removeChild_eq_ok_iff.1 he
      exact h.prune hc hv
    · exact h
  | insertChild parent index child =>
    rw [ArenaCall.run]
    split
    · next a' he =>
      rw [ArenaCall.relists, he] at hr
      have hm : child ∉ a.childrenOf parent := by simpa [Except.isOk, Except.toBool] using hr
      obtain ⟨m, rfl⟩ := insertChild_eq_ok_iff.1 he
      exact h.plant m hm
    · exact h

/-- Calls keep an arena linked, if none of them lists a node twice. -/
theorem Arena.Linked.runAll (h : a.Linked) (hr : ArenaCall.noneRelists a calls = true) :
    (ArenaCall.runAll a calls).Linked := by
  induction calls generalizing a with
  | nil => exact h
  | cons call rest ih =>
    rw [ArenaCall.noneRelists, Bool.and_eq_true, Bool.not_eq_true'] at hr
    exact ih (h.run hr.1) hr.2

end

namespace ArenaCall

/-- Whatever edits are made of the arena of a program, the live nodes form a tree, unless one of the
edits puts a node into a child list that has it already. -/
theorem isTree_runAll (p : Program) (calls : List ArenaCall)
    (h : noneRelists (ofProgram p) calls = true) : (runAll (ofProgram p) calls).IsTree :=
  ((linked_ofProgram p).runAll h).isTree

/-- In `void f() { { ; } }`, the inner block gives its place to its statement, which is taken out
and put back into the detached block, which is attached again. -/
theorem isTree_runAll_blocks :
    let p : Program := ⟨[.function "void" "f" [] [.block [.empty]]]⟩
    let calls : List ArenaCall :=
      [.replaceChild 2 3 4, .removeChild 2 4, .alloc .block, .insertChild 5 0 4,
        .insertChild 2 0 5]
    noneRelists (ofProgram p) calls = true ∧ (runAll (ofProgram p) calls).IsTree := by
  intro p calls
  exact ⟨by decide, isTree_runAll p calls (by decide)⟩

/-- In `void f() { { ; } }`, the inner block gives its place to its statement, which is taken out.
The detached block still lists the statement and takes it a second time; when it is attached again,
the statement is met twice. -/
theorem not_isTree_runAll :
    ¬ ∀ (p : Program) (calls : List ArenaCall), (runAll (ofProgram p) calls).IsTree := by
  intro h
  have htree := h ⟨[.function "void" "f" [] [.block [.empty]]]⟩
    [.replaceChild 2 3 4, .removeChild 2 4, .insertChild 3 0 4, .insertChild 2 0 3]
  exact absurd htree.nodup (by decide)

end ArenaCall

end ShaderShrink

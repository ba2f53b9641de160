import ShaderShrink.Proofs.Arena.Linked

/-!
# Edits that address nodes by number

The edits of an arena look numbers up that they are given, and use those that they find in child
lists without a check. `Stepwise` is the type of computations that say so: one step is made after
another, each on the arena that the steps before it left, and a computation that is refused keeps
what was changed up to there. A number that is used without a check and has no node ends the
computation outside the arena.

`Stepwise.replaceChild`, `Stepwise.removeChild` and `Stepwise.insertChild` are the edits as such
computations. In an arena whose child lists name nodes of the arena (`Arena.InRange`) they give what
the edits give: they never leave the arena, and they change nothing before their last check
(`Stepwise.replaceChild_eq`, `Stepwise.removeChild_eq`, `Stepwise.insertChild_eq`). Every edit
leaves such an arena behind.
-/

namespace ShaderShrink

open Arena

/-- What a computation comes to. -/
inductive Outcome (ε α : Type) where
  | done (value : α)
  | refused (error : ε)
  /-- A number without a node was used. -/
  | outside
  deriving DecidableEq, Repr

/-- A computation on an arena, which it leaves as it stands at the end. -/
def Stepwise (ε α : Type) : Type := Arena → Outcome ε α × Arena

namespace Stepwise

variable {ε ε' α β γ : Type}

/-- Computations one after another, as long as they are done. -/
def andThen (x : Stepwise ε α) (f : α → Stepwise ε β) : Stepwise ε β := fun a =>
  match x a with
  | (.done value, a) => f value a
  | (.refused e, a) => (.refused e, a)
  | (.outside, a) => (.outside, a)

instance : Monad (Stepwise ε) where
  pure value a := (.done value, a)
  bind := andThen

/-- The computation with other errors. -/
def mapError (f : ε → ε') (x : Stepwise ε α) : Stepwise ε' α := fun a =>
  match x a with
  | (.done value, a) => (.done value, a)
  | (.refused e, a) => (.refused (f e), a)
  | (.outside, a) => (.outside, a)

/-! ## Steps -/

/-- A look at the arena. -/
def check (f : Arena → Except ε α) : Stepwise ε α := fun a =>
  match f a with
  | .ok value => (.done value, a)
  | .error e => (.refused e, a)

/-- Goes on if the arena is as it should be. -/
def require (p : Arena → Bool) (e : ε) : Stepwise ε Unit :=
  check fun a => if p a then .ok () else .error e

/-- The node with a number that is not checked. -/
def nodeAt (id : NodeId) : Stepwise ε Node := fun a =>
  match a.get? id with
  | some node => (.done node, a)
  | none => (.outside, a)

/-- Changes the children of the node with a number that is not checked, at a place that is not
checked either and has to be below `bound`. -/
def updateChildren (id : NodeId) (place : Nat) (bound : Node → Nat)
    (f : List NodeId → List NodeId) : Stepwise ε Unit := fun a =>
  match a.get? id with
  | some node =>
    if place < bound node then
      (.done (), a.modify id fun node => { node with children := f node.children })
    else (.outside, a)
  | none => (.outside, a)

/-- Sets the parent of the node with a number that is not checked. -/
def updateParent (id : NodeId) (parent : Option NodeId) : Stepwise ε Unit := fun a =>
  if id < a.size then (.done (), a.setParent id parent) else (.outside, a)

/-- Makes a node. -/
def alloc (data : Payload) : Stepwise ε NodeId := fun a => (.done a.size, (a.alloc data).1)

/-! ## Edits -/

/-- The place of a child among the children of its parent. -/
def placeOf (parent child : NodeId) : Stepwise ArenaError Nat := do
  let node ← nodeAt parent
  check fun _ =>
    match node.children.idxOf? child with
    | some place => .ok place
    | none => .error (.notAChild parent child)

/-- Goes on if the nodes name `node` as their parent, but for the node `spared`. -/
def requireLinked (node : NodeId) (spared : Option NodeId) :
    List NodeId → Stepwise ArenaError Unit
  | [] => pure ()
  | child :: rest => do
    let childNode ← nodeAt child
    require (fun _ => !(childNode.parent != some node && some child != spared))
      (.replacementAttached child)
    requireLinked node spared rest

/-- Makes a node the parent of others. -/
def adopt (parent : NodeId) : List NodeId → Stepwise ε Unit
  | [] => pure ()
  | child :: rest => do
    updateParent child (some parent)
    adopt parent rest

/-- Puts `replacement` in the place that `target` has under `parent`. -/
def replaceChild (parent target replacement : NodeId) : Stepwise ArenaError Unit := do
  let _ ← check (·.find parent)
  let _ ← check (·.find target)
  let replacementNode ← check (·.find replacement)
  require (·.hasChild parent target) (.notAChild parent target)
  let place ← placeOf parent target
  check (·.requireSlot parent place replacement)
  require (fun _ => !(replacement == target || replacement == root))
    (.replacementAttached replacement)
  require (fun _ => replacementNode.parent.all (· == target)) (.replacementAttached replacement)
  requireLinked replacement (some target) replacementNode.children
  updateChildren parent place (·.children.length) (·.set place replacement)
  updateParent target none
  updateParent replacement (some parent)
  let node ← nodeAt replacement
  adopt replacement node.children

/-- Takes a node out of the children of its parent and gives the place that it had. -/
def removeChild (parent child : NodeId) : Stepwise ArenaError Nat := do
  let parentNode ← check (·.find parent)
  require (fun _ => parentNode.data.isVariadic) (.notVariadic parent)
  require (·.hasChild parent child) (.notAChild parent child)
  let place ← placeOf parent child
  updateChildren parent place (·.children.length) (·.eraseIdx place)
  updateParent child none
  return place

/-- Puts a node among the children of another one at a place. -/
def insertChild (parent : NodeId) (index : Nat) (child : NodeId) : Stepwise ArenaError Unit := do
  let parentNode ← check (·.find parent)
  require (fun _ => parentNode.data.isVariadic) (.notVariadic parent)
  require (fun _ => index ≤ parentNode.children.length)
    (.indexOutOfBounds parent index parentNode.children.length)
  check (·.requireSlot parent index child)
  let childNode ← check (·.find child)
  require (fun _ => !(childNode.parent.isSome || child == root)) (.replacementAttached child)
  requireLinked child none childNode.children
  updateChildren parent index (·.children.length + 1) (·.insertIdx index child)
  updateParent child (some parent)

end Stepwise

/-! ## Arenas whose child lists stay inside -/

/-- The children of all nodes are nodes of the arena. -/
structure Arena.InRange (a : Arena) : Prop where
  child_lt {x c : NodeId} : c ∈ a.childrenOf x → c < a.size

namespace Arena

variable {a : Arena} {parent target replacement child : NodeId} {index : Nat} {data : Payload}

/-- The child lists of the arena of a program stay inside it. -/
theorem inRange_ofProgram (p : Program) : (ofProgram p).InRange :=
  ⟨(wellFormed_ofProgram p).child_lt⟩

/-- Child lists stay inside when a node is made. -/
theorem InRange.alloc (h : a.InRange) : (a.alloc data).1.InRange := by
  refine ⟨fun {x c} hc => ?_⟩
  rw [childrenOf_alloc] at hc
  rw [size_alloc]
  exact Nat.lt_succ_of_lt (h.child_lt hc)

/-- The place in a graft may be looked up beforehand. -/
theorem graft_eq_of_get? {node : Node} (h : a.get? parent = some node) :
    a.graft parent target replacement = ((a.modify parent fun n =>
      { n with children := n.children.set (node.children.idxOf target) replacement }).setParent
        target none).setParent replacement (some parent) := by
  have hplace : (a.modify parent fun n =>
      { n with children := n.children.set (n.children.idxOf target) replacement }) =
      a.modify parent fun n =>
        { n with children := n.children.set (node.children.idxOf target) replacement } :=
    modify_congr h rfl
  rw [graft, hplace]

/-- Child lists stay inside when a node takes the place of another one. -/
theorem InRange.graft (h : a.InRange) (hp : parent < a.size) (hr : replacement < a.size) :
    (a.graft parent target replacement).InRange := by
  refine ⟨fun {x c} hc => ?_⟩
  rw [childrenOf_graft hp] at hc
  rw [size_graft]
  split at hc
  · rcases List.mem_or_eq_of_mem_set hc with hc | rfl
    · exact h.child_lt hc
    · exact hr
  · exact h.child_lt hc

/-- Child lists stay inside when a node adopts its children. -/
theorem InRange.adoptChildren (h : a.InRange) : (a.adoptChildren parent).InRange := by
  refine ⟨fun {x c} hc => ?_⟩
  rw [childrenOf_adoptChildren] at hc
  rw [size_adoptChildren]
  exact h.child_lt hc

/-- Child lists stay inside when a child is taken out of one. -/
theorem InRange.prune (h : a.InRange) (hp : parent < a.size) : (a.prune parent child).InRange := by
  refine ⟨fun {x c} hc => ?_⟩
  rw [childrenOf_prune hp] at hc
  rw [size_prune]
  split at hc
  · exact h.child_lt (List.mem_of_mem_erase hc)
  · exact h.child_lt hc

/-- Child lists stay inside when a child is put into one. -/
theorem InRange.plant (h : a.InRange) (m : a.MayInsert parent index child) :
    (a.plant parent index child).InRange := by
  refine ⟨fun {x c} hc => ?_⟩
  rw [childrenOf_plant m.parent_lt_size] at hc
  rw [size_plant]
  split at hc
  · rcases List.eq_or_mem_of_mem_insertIdx hc with rfl | hc
    · exact m.child_lt_size
    · exact h.child_lt hc
  · exact h.child_lt hc

end Arena

/-! ## The edits step by step -/

namespace Stepwise

variable {ε α β γ : Type} {a : Arena} {result : β → α × Arena}
  {parent target replacement child node : NodeId} {spared : Option NodeId} {index : Nat}

/-- What an edit comes to that changes nothing unless it is done. -/
def ending (a : Arena) (result : β → α × Arena) : Except ε β → Outcome ε α × Arena
  | .ok value => (.done (result value).1, (result value).2)
  | .error e => (.refused e, a)

/-- A check with an outcome goes on as the edit does. -/
theorem check_bind {f : Arena → Except ε γ} {g : γ → Stepwise ε α} {m : γ → Except ε β}
    (h : ∀ value, f a = .ok value → g value a = ending a result (m value)) :
    (check f >>= g) a = ending a result (f a >>= m) := by
  change andThen _ _ a = _
  rw [andThen, check]
  cases hf : f a with
  | error e => rfl
  | ok value => exact h value hf

/-- A check that succeeds goes on with its value. -/
theorem check_bind_of_ok {f : Arena → Except ε γ} {g : γ → Stepwise ε α} {value : γ}
    (h : f a = .ok value) : (check f >>= g) a = g value a := by
  change andThen _ _ a = _
  rw [andThen, check, h]

/-- A requirement that is not met ends the call with its error. -/
theorem require_bind {p : Arena → Bool} {q : Prop} [Decidable q] {e : ε} {g : Unit → Stepwise ε α}
    {k : γ → Except ε β} {m : Except ε β} (hq : q ↔ p a = false)
    (h : ¬ q → g () a = ending a result m) :
    (require p e >>= g) a = ending a result (if q then throw e >>= k else m) := by
  change andThen _ _ a = _
  rw [andThen, require, check]
  by_cases hp : q
  · rw [if_pos hp, hq.1 hp]
    rfl
  · rw [if_neg hp, Bool.eq_true_of_not_eq_false fun h => hp (hq.2 h)]
    exact h hp

/-- A node that is there is found. -/
theorem nodeAt_bind {g : Node → Stepwise ε α} {n : Node} (h : a.get? node = some n) :
    (nodeAt node >>= g) a = g n a := by
  change andThen _ _ a = _
  rw [andThen, nodeAt, h]

/-- The children of a node that is there are changed if the position is in bounds. -/
theorem updateChildren_bind {g : Unit → Stepwise ε α} {n : Node} {bound : Node → Nat}
    {f : List NodeId → List NodeId} (h : a.get? node = some n) (hi : index < bound n) :
    (updateChildren node index bound f >>= g) a =
      g () (a.modify node fun n => { n with children := f n.children }) := by
  change andThen _ _ a = _
  rw [andThen, updateChildren, h]
  simp only [if_pos hi]

/-- The parent of a node that is there is changed. -/
theorem updateParent_eq {p : Option NodeId} (h : child < a.size) :
    (updateParent child p : Stepwise ε Unit) a = (.done (), a.setParent child p) := by
  rw [updateParent, if_pos h]

/-- A call goes on when the parent of a node that is there was changed. -/
theorem updateParent_bind {g : Unit → Stepwise ε α} {p : Option NodeId} (h : child < a.size) :
    (updateParent child p >>= g) a = g () (a.setParent child p) := by
  change andThen _ _ a = _
  rw [andThen, updateParent_eq h]

/-- The place of a child is found if there is one. -/
theorem placeOf_bind {g : Nat → Stepwise ArenaError α} {n : Node} (h : a.get? parent = some n)
    (hc : child ∈ n.children) :
    (placeOf parent child >>= g) a = g (n.children.idxOf child) a := by
  obtain ⟨place, hplace⟩ := Option.isSome_iff_exists.1 (List.isSome_idxOf?.2 hc)
  have hidx : n.children.idxOf child = place := by
    rw [List.idxOf_eq_getD_idxOf?, hplace, Option.getD_some]
  have hfound : placeOf parent child a = (.done place, a) := by
    rw [placeOf, nodeAt_bind h, check, hplace]
  change andThen _ _ a = _
  rw [andThen, hfound, hidx]

/-- The first child that is not linked is reported. -/
theorem requireLinked_eq {children : List NodeId} (h : ∀ c ∈ children, c < a.size) :
    requireLinked node spared children a =
      match children.find? fun c => a.parent? c != some node && some c != spared with
      | some c => (.refused (.replacementAttached c), a)
      | none => (.done (), a) := by
  induction children with
  | nil => rfl
  | cons c rest ih =>
    obtain ⟨n, hn⟩ := lt_size_iff.1 (h c List.mem_cons_self)
    rw [requireLinked, nodeAt_bind hn, List.find?_cons, parent?_of_get? hn]
    change andThen _ _ a = _
    rw [andThen, require, check]
    cases n.parent != some node && some c != spared with
    | true => rfl
    | false => exact ih fun c hc => h c (List.mem_cons_of_mem _ hc)

/-- Asking the children of a node one by one is the check of all of them. -/
theorem requireLinked_bind {g : Unit → Stepwise ArenaError α} {m : Unit → Except ArenaError β}
    (hc : ∀ c ∈ a.childrenOf node, c < a.size)
    (h : a.requireChildren node spared = .ok () → g () a = ending a result (m ())) :
    (requireLinked node spared (a.childrenOf node) >>= g) a =
      ending a result (a.requireChildren node spared >>= m) := by
  change andThen _ _ a = _
  rw [andThen, requireLinked_eq hc]
  rw [requireChildren] at h ⊢
  cases hf : (a.childrenOf node).find? fun c => a.parent? c != some node && some c != spared with
  | none =>
    rw [hf] at h
    exact h rfl
  | some c => rfl

/-- Giving nodes a parent one by one is giving it to all of them. -/
theorem adopt_eq {children : List NodeId} (h : ∀ c ∈ children, c < a.size) :
    (adopt parent children : Stepwise ε Unit) a =
      (.done (), children.foldl (fun a c => a.setParent c (some parent)) a) := by
  induction children generalizing a with
  | nil => rfl
  | cons c rest ih =>
    rw [adopt, updateParent_bind (h c List.mem_cons_self), List.foldl_cons]
    refine ih fun c hc => ?_
    rw [size_setParent]
    exact h c (List.mem_cons_of_mem _ hc)

/-- A replacement stays inside the arena, and one that is refused changes nothing. -/
theorem replaceChild_eq (h : a.InRange) : replaceChild parent target replacement a =
    ending a (fun a' => ((), a')) (a.replaceChild parent target replacement) := by
  unfold replaceChild Arena.replaceChild
  refine check_bind fun parentNode hp => check_bind fun targetNode ht =>
    check_bind fun replacementNode hr => ?_
  rw [find_eq_ok_iff] at hp ht hr
  have hparent := lt_size_of_get? hp
  have htarget := lt_size_of_get? ht
  have hreplacement := lt_size_of_get? hr
  refine require_bind (by simp) fun hchild => ?_
  have hmem : target ∈ parentNode.children := by
    rw [Bool.not_eq_true', Bool.not_eq_false] at hchild
    exact childrenOf_of_get? hp ▸ (hasChild_iff.1 hchild).2.1
  rw [placeOf_bind hp hmem]
  refine check_bind fun _ _ => ?_
  refine require_bind (by simp [or_iff_not_imp_left]) fun _ => ?_
  refine require_bind (by cases replacementNode.parent <;> simp) fun _ => ?_
  rw [← childrenOf_of_get? hr]
  refine requireLinked_bind (fun c hc => h.child_lt hc) fun _ => ?_
  -- from here on nothing is refused
  rw [updateChildren_bind hp (List.idxOf_lt_length_of_mem hmem),
    updateParent_bind (by rwa [size_modify]),
    updateParent_bind (by rwa [size_setParent, size_modify])]
  dsimp only
  rw [← graft_eq_of_get? hp]
  obtain ⟨n, hn⟩ := lt_size_iff.1 (size_graft.symm ▸ hreplacement)
  rw [nodeAt_bind hn, ← childrenOf_of_get? hn,
    adopt_eq fun c hc => (h.graft hparent hreplacement).child_lt hc]
  rfl

/-- A removal stays inside the arena, and one that is refused changes nothing. -/
theorem removeChild_eq : removeChild parent child a =
    ending a (fun r => (r.2, r.1)) (a.removeChild parent child) := by
  unfold removeChild Arena.removeChild
  refine check_bind fun parentNode hp => ?_
  rw [find_eq_ok_iff] at hp
  refine require_bind (by simp) fun _ => require_bind (by simp) fun hchild => ?_
  rw [Bool.not_eq_true', Bool.not_eq_false] at hchild
  have hmem : child ∈ parentNode.children :=
    childrenOf_of_get? hp ▸ (hasChild_iff.1 hchild).2.1
  have hlt : child < a.size := lt_size_of_parent? (hasChild_iff.1 hchild).1
  rw [placeOf_bind hp hmem, updateChildren_bind hp (List.idxOf_lt_length_of_mem hmem),
    updateParent_bind (by rwa [size_modify])]
  rfl

/-- An insertion stays inside the arena, and one that is refused changes nothing. -/
theorem insertChild_eq (h : a.InRange) : insertChild parent index child a =
    ending a (fun a' => ((), a')) (a.insertChild parent index child) := by
  unfold insertChild Arena.insertChild
  refine check_bind fun parentNode hp => ?_
  rw [find_eq_ok_iff] at hp
  refine require_bind (by simp) fun _ => require_bind (by simp) fun hindex => ?_
  refine check_bind fun _ hslot => ?_
  obtain ⟨_, _, _, -, -, hpart, -⟩ := requireSlot_eq_ok_iff.1 hslot
  have hlt := lt_size_of_data? hpart
  obtain ⟨childNode, hc⟩ := lt_size_iff.1 hlt
  rw [check_bind_of_ok (find_eq_ok_iff.2 hc), ← parent?_of_get? hc]
  refine require_bind (by simp [or_iff_not_imp_left]) fun _ => ?_
  rw [← childrenOf_of_get? hc]
  refine requireLinked_bind (fun c hc => h.child_lt hc) fun _ => ?_
  -- from here on nothing is refused
  rw [updateChildren_bind hp (by omega), updateParent_eq (by rwa [size_modify])]
  rfl

end Stepwise

end ShaderShrink

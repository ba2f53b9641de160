import Mathlib.Logic.Function.Iterate
import ShaderShrink.Arena.Snippet
import ShaderShrink.Proofs.Arena.Acyclic

/-!
# Readers that go down from any node

The size of a part and the text of a node are read by going down child lists, from detached nodes
too, and nothing but the shape of the arena stops them. `Arena.countTurn` is one turn of the loop
that counts, with the stack of nodes that it has still to visit; `Arena.snippetUpTo` reads the text
as `Arena.snippet` does and gives up when it would have to go further down than it may. If no way
down from a node is longer than allowed (`Arena.Shallow`), the loop ends
(`Shallow.exists_countTurn`) and the reader does not give up (`Shallow.snippetUpTo_eq`).

`ArenaCall.ends_runAll` is the result for all nodes of an arena behind calls of the edits, none of
which puts a node at or below itself or into a list that has it already. An insertion may do both,
as it looks at nothing but the parent of the node that it inserts: a detached block can be put into
itself, and its nodes are then counted without end (`ArenaCall.not_ends_runAll`).
-/

namespace ShaderShrink

open Arena

namespace Arena

/-! ## The readers, step by step -/

/-- One turn of the loop that counts the nodes at and below a node. The nodes to visit are on a
stack, whose top is the head of the list; numbers without a node are not counted. -/
def countTurn (a : Arena) : List NodeId × Nat → List NodeId × Nat
  | ([], count) => ([], count)
  | (id :: stack, count) =>
    match a.get? id with
    | none => (stack, count)
    | some node => (node.children.reverse ++ stack, count + 1)

/-- Reads an expression. Gives up, with `none`, below so many levels. -/
def exprUpTo (a : Arena) : Nat → NodeId → OptionT (Except ArenaError) Expr
  | 0, _ => failure
  | levels + 1, id => do
    let node ← a.find id
    let part (index : Nat) : OptionT (Except ArenaError) Expr := do
      a.exprUpTo levels (← a.nthChild id index)
    match node.data with
    | .unary op => return .unary op (← part 0)
    | .binary op => do
      let lhs ← part 0
      return .binary op lhs (← part 1)
    | .call callee => return .call callee (← node.children.mapM (a.exprUpTo levels))
    | .paren => return .paren (← part 0)
    | .ternary => do
      let cond ← part 0
      let onTrue ← part 1
      return .ternary cond onTrue (← part 2)
    | .int value => return .int value
    | .float text => return .float text
    | .bool value => return .bool value
    | .ident name => return .ident name
    | _ => throwThe ArenaError (a.malformed id)

/-- Reads the first child as an expression, if there is one. -/
def firstExprUpTo (a : Arena) (levels : Nat) (id : NodeId) :
    OptionT (Except ArenaError) (Option Expr) :=
  match a.childrenOf id with
  | [] => return none
  | child :: _ => some <$> a.exprUpTo levels child

/-- Reads a statement. Gives up, with `none`, below so many levels. -/
def stmtUpTo (a : Arena) : Nat → NodeId → OptionT (Except ArenaError) Stmt
  | 0, _ => failure
  | levels + 1, id => do
    let node ← a.find id
    let part (index : Nat) : OptionT (Except ArenaError) Stmt := do
      a.stmtUpTo levels (← a.nthChild id index)
    match node.data with
    | .block => return .block (← node.children.mapM (a.stmtUpTo levels))
    | .exprStmt => return .expr (← a.exprUpTo levels (← a.nthChild id 0))
    | .var ty name => return .var ty name (← a.firstExprUpTo levels id)
    | .ifElse => do
      let cond ← a.exprUpTo levels (← a.nthChild id 0)
      let onTrue ← part 1
      match node.children[2]? with
      | none => return .ifElse cond onTrue none
      | some child => return .ifElse cond onTrue (some (← a.stmtUpTo levels child))
    | .whileLoop => do
      let cond ← a.exprUpTo levels (← a.nthChild id 0)
      return .whileLoop cond (← part 1)
    | .ret => return .ret (← a.firstExprUpTo levels id)
    | .discard => return .discard
    | .empty => return .empty
    | _ => throwThe ArenaError (a.malformed id)

/-- Reads a declaration. Gives up, with `none`, below so many levels. -/
def declUpTo (a : Arena) : Nat → NodeId → OptionT (Except ArenaError) Decl
  | 0, _ => failure
  | levels + 1, id => do
    let node ← a.find id
    match node.data with
    | .global ty name => return .global ty name (← a.firstExprUpTo levels id)
    | .function returnType name params => do
      match ← a.stmtUpTo levels (← a.nthChild id 0) with
      | .block body => return .function returnType name params body
      | _ => throwThe ArenaError (a.malformed id)
    | _ => throwThe ArenaError (a.malformed id)

/-- The text of a node. Gives up, with `none`, below so many levels. -/
def nodeTextUpTo (a : Arena) (levels : Nat) (id : NodeId) (data : Payload) :
    OptionT (Except ArenaError) String :=
  match data.category with
  | .expression => Expr.render <$> a.exprUpTo levels id
  | .statement => Stmt.render 0 <$> a.stmtUpTo levels id
  | .declaration => Decl.render <$> a.declUpTo levels id
  | .unit => return "<unit>"

/-- A short text for a node, or `none` if it takes more levels to read. -/
def snippetUpTo (a : Arena) (levels : Nat) (id : NodeId) : Option String :=
  match a.get? id with
  | none => some ("<" ++ nodeLabel id ++ ">")
  | some node =>
    match (a.nodeTextUpTo levels id node.data).run with
    | .ok none => none
    | .ok (some text) => some (abbreviate (Text.oneLine text))
    | .error _ => some (abbreviate (Text.oneLine ("<" ++ node.data.formName ++ ">")))

/-- What the readers of a node rely on: no way down from it returns to it, the loop that counts its
nodes ends with their number, and the text is read without going down without end. -/
structure Ends (a : Arena) (id : NodeId) : Prop where
  no_return {c : NodeId} : c ∈ a.childrenOf id → ¬ a.Below c id
  count : ∃ turns, a.countTurn^[turns] ([id], 0) = ([], a.sizeBelow id)
  text {levels : Nat} : a.size < levels → a.snippetUpTo levels id = some (a.snippet id)

/-- All ways down from a node have fewer steps than there are levels. -/
def Shallow (a : Arena) (levels : Nat) (x : NodeId) : Prop :=
  ∀ ⦃m : Nat⦄ ⦃y : NodeId⦄, a.BelowIn x m y → m < levels

section
variable {a : Arena} {x c : NodeId} {n m index : Nat} {data : Payload}

/-- Below every node there is at least one level. -/
theorem not_shallow_zero : ¬ a.Shallow 0 x := fun h => Nat.not_lt_zero 0 (h .self)

/-- Below a child there is one level less. -/
theorem Shallow.of_mem (h : a.Shallow (n + 1) x) (hc : c ∈ a.childrenOf x) : a.Shallow n c :=
  fun _ _ hy => Nat.lt_of_succ_lt_succ (h (belowIn_succ_iff.2 ⟨c, hc, hy⟩))

/-- Below a child there are not more levels than below its parent. -/
theorem Shallow.child (h : a.Shallow n x) (hc : c ∈ a.childrenOf x) : a.Shallow n c :=
  fun _ _ hy => Nat.lt_of_succ_lt (h (belowIn_succ_iff.2 ⟨c, hc, hy⟩))

/-- A child that is found is among the children. -/
theorem mem_childrenOf_of_nthChild (h : a.nthChild x index = .ok c) : c ∈ a.childrenOf x := by
  rw [nthChild] at h
  split at h
  · next hc =>
    injection h with h
    exact h ▸ List.mem_of_getElem? hc
  · cases h

/-! ## Counting -/

/-- The next node is counted, and its children wait in front of the others. -/
theorem countTurn_of_get? {node : Node} {stack : List NodeId} {count : Nat}
    (hx : a.get? x = some node) :
    a.countTurn (x :: stack, count) = (node.children.reverse ++ stack, count + 1) := by
  rw [countTurn, hx]

/-- A node on top of the stack is worked off with all that is below it, before the loop comes to the
rest of the stack. -/
theorem Shallow.exists_countTurn (h : a.Shallow n x) :
    ∃ turns, ∀ stack count,
      a.countTurn^[turns] (x :: stack, count) = (stack, count + a.sizeWithin n x) := by
  induction n generalizing x with
  | zero => exact absurd h not_shallow_zero
  | succ n ih =>
    -- the same for some nodes with their parts, in the order of the stack
    have hall (ids : List NodeId) (hids : ∀ c ∈ ids, a.Shallow n c) :
        ∃ turns, ∀ stack count, a.countTurn^[turns] (ids ++ stack, count) =
          (stack, count + ids.foldr (fun c sum => a.sizeWithin n c + sum) 0) := by
      induction ids with
      | nil => exact ⟨0, fun _ _ => rfl⟩
      | cons c rest ihr =>
        obtain ⟨hc, hrest⟩ := List.forall_mem_cons.1 hids
        obtain ⟨first, hfirst⟩ := ih hc
        obtain ⟨more, hmore⟩ := ihr hrest
        refine ⟨more + first, fun stack count => ?_⟩
        rw [Function.iterate_add_apply, List.cons_append, hfirst, hmore, List.foldr_cons,
          Nat.add_assoc]
    cases hx : a.get? x with
    | none =>
      refine ⟨1, fun stack count => ?_⟩
      rw [Function.iterate_one, countTurn, sizeWithin, hx]
      rfl
    | some node =>
      obtain ⟨turns, hturns⟩ := hall node.children.reverse fun c hc =>
        h.of_mem (childrenOf_of_get? hx ▸ List.mem_reverse.1 hc)
      refine ⟨turns + 1, fun stack count => ?_⟩
      have hsum (ids : List NodeId) : ids.foldr (fun c sum => a.sizeWithin n c + sum) 1 =
          1 + ids.foldr (fun c sum => a.sizeWithin n c + sum) 0 := by
        induction ids with
        | nil => rfl
        | cons c rest ih =>
          rw [List.foldr_cons, ih, List.foldr_cons]
          omega
      have hcomm : LeftCommutative fun (c : NodeId) sum => a.sizeWithin n c + sum :=
        ⟨fun _ _ _ => Nat.add_left_comm _ _ _⟩
      have hsize : a.sizeWithin (n + 1) x =
          node.children.foldr (fun c sum => a.sizeWithin n c + sum) 1 := by rw [sizeWithin, hx]
      rw [Function.iterate_succ_apply, countTurn_of_get? hx, hturns, hsize, hsum,
        (List.reverse_perm node.children).foldr_eq, Nat.add_assoc]

/-- A node that is its own only child stays on the stack. -/
theorem countTurn_iterate_of_self {turns count : Nat} (hx : a.childrenOf x = [x]) :
    a.countTurn^[turns] ([x], count) = ([x], count + turns) := by
  have hturn (count : Nat) : a.countTurn ([x], count) = ([x], count + 1) := by
    obtain ⟨node, hn⟩ := lt_size_iff.1 (lt_size_of_mem_childrenOf (hx ▸ List.mem_singleton_self x))
    rw [childrenOf_of_get? hn] at hx
    rw [countTurn_of_get? hn, hx]
    rfl
  induction turns generalizing count with
  | zero => rfl
  | succ turns ih =>
    rw [Function.iterate_succ_apply, hturn, ih, Nat.add_assoc, Nat.add_comm 1]

/-! ## Reading -/

/-- What succeeded goes on with its value. -/
theorem liftM_ok_bind {α β : Type} {v : α} {f : α → OptionT (Except ArenaError) β} :
    ((liftM (Except.ok v : Except ArenaError α) : OptionT (Except ArenaError) α) >>= f) = f v :=
  rfl

/-- Reading one after another does not run out if no single one does. -/
theorem liftM_mapM {α β : Type} {f : α → OptionT (Except ArenaError) β}
    {g : α → Except ArenaError β} {xs : List α} (h : ∀ x ∈ xs, f x = liftM (g x)) :
    xs.mapM f = liftM (xs.mapM g) := by
  induction xs with
  | nil => rfl
  | cons x rest ih =>
    obtain ⟨hx, hrest⟩ := List.forall_mem_cons.1 h
    simp only [List.mapM_cons, liftM_bind, liftM_pure, hx, ih hrest]

/-- What is the same for all children is the same for the child at a place. -/
theorem nthChild_bind_congr {β : Type} {f g : NodeId → OptionT (Except ArenaError) β}
    (h : ∀ c ∈ a.childrenOf x, f c = g c) :
    (liftM (a.nthChild x index) >>= f) = (liftM (a.nthChild x index) >>= g) := by
  cases hc : a.nthChild x index with
  | error e => rfl
  | ok c => exact h c (mem_childrenOf_of_nthChild hc)

/-- Reading an expression down to as many levels as there are does not run out. -/
theorem Shallow.exprUpTo_eq (hn : a.Shallow n x) (hm : a.Shallow m x) :
    a.exprUpTo n x = liftM (a.exprWithin m x) := by
  induction n generalizing x m with
  | zero => exact absurd hn not_shallow_zero
  | succ n ih =>
    cases m with
    | zero => exact absurd hm not_shallow_zero
    | succ m =>
      have hkids (c : NodeId) (hc : c ∈ a.childrenOf x) :
          a.exprUpTo n c = liftM (a.exprWithin m c) := ih (hn.of_mem hc) (hm.of_mem hc)
      have hpart (index : Nat) : (liftM (a.nthChild x index) >>= a.exprUpTo n) =
          liftM (a.nthChild x index) >>= fun c => liftM (a.exprWithin m c) :=
        nthChild_bind_congr hkids
      rw [exprUpTo, exprWithin]
      cases hx : a.find x with
      | error e => rfl
      | ok node =>
        have hall : node.children.mapM (a.exprUpTo n) =
            liftM (node.children.mapM (a.exprWithin m)) := by
          refine liftM_mapM fun c hc => hkids c ?_
          rwa [childrenOf_of_get? (find_eq_ok_iff.1 hx)]
        simp only [liftM_ok_bind, Except.ok_bind, hpart, hall]
        generalize node.data = data
        cases data with
        | unary | binary | call | paren | ternary => simp only [liftM_bind]; rfl
        | _ => rfl

/-- Reading the expression of a node that may have one does not run out. -/
theorem Shallow.firstExprUpTo_eq (hn : a.Shallow (n + 1) x) (hm : a.Shallow (a.size + 1) x) :
    a.firstExprUpTo n x = liftM (a.firstExpr x) := by
  rw [firstExprUpTo, firstExpr]
  cases hc : a.childrenOf x with
  | nil => rfl
  | cons c rest =>
    have hmem : c ∈ a.childrenOf x := hc ▸ List.mem_cons_self
    simp only [(hn.of_mem hmem).exprUpTo_eq (hm.child hmem)]
    exact (liftM_map _ _).symm

/-- Reading a statement down to as many levels as there are does not run out. -/
theorem Shallow.stmtUpTo_eq (hn : a.Shallow n x) (hm : a.Shallow m x)
    (hs : a.Shallow (a.size + 1) x) : a.stmtUpTo n x = liftM (a.stmtWithin m x) := by
  induction n generalizing x m with
  | zero => exact absurd hn not_shallow_zero
  | succ n ih =>
    cases m with
    | zero => exact absurd hm not_shallow_zero
    | succ m =>
      have hexpr (c : NodeId) (hc : c ∈ a.childrenOf x) :
          a.exprUpTo n c = liftM (a.toExpr c) := (hn.of_mem hc).exprUpTo_eq (hs.child hc)
      have hkids (c : NodeId) (hc : c ∈ a.childrenOf x) :
          a.stmtUpTo n c = liftM (a.stmtWithin m c) :=
        ih (hn.of_mem hc) (hm.of_mem hc) (hs.child hc)
      have hcond {β : Type} (k : Expr → OptionT (Except ArenaError) β) :
          (liftM (a.nthChild x 0) >>= fun c => a.exprUpTo n c >>= k) =
            liftM (a.nthChild x 0) >>= fun c => liftM (a.toExpr c) >>= k :=
        nthChild_bind_congr fun c hc => by rw [hexpr c hc]
      have hpart (index : Nat) : (liftM (a.nthChild x index) >>= a.stmtUpTo n) =
          liftM (a.nthChild x index) >>= fun c => liftM (a.stmtWithin m c) :=
        nthChild_bind_congr hkids
      rw [stmtUpTo, stmtWithin]
      cases hx : a.find x with
      | error e => rfl
      | ok node =>
        rw [childrenOf_of_get? (find_eq_ok_iff.1 hx)] at hkids
        simp only [liftM_ok_bind, Except.ok_bind, hpart, hcond, liftM_mapM hkids,
          hn.firstExprUpTo_eq hs]
        generalize node.data = data
        cases data with
        | block | exprStmt | var | whileLoop | ret => simp only [liftM_bind]; rfl
        | ifElse =>
          cases hc : node.children[2]? with
          | none => simp only [liftM_bind]; rfl
          | some c => simp only [liftM_bind, hkids c (List.mem_of_getElem? hc)]; rfl
        | _ => rfl

/-- Reading a declaration down to as many levels as there are does not run out. -/
theorem Shallow.declUpTo_eq (hn : a.Shallow n x) (hs : a.Shallow (a.size + 1) x) :
    a.declUpTo n x = liftM (a.toDecl x) := by
  cases n with
  | zero => exact absurd hn not_shallow_zero
  | succ n =>
    have hbody (c : NodeId) (hc : c ∈ a.childrenOf x) : a.stmtUpTo n c = liftM (a.toStmt c) :=
      (hn.of_mem hc).stmtUpTo_eq (hs.child hc) (hs.child hc)
    have hpart {β : Type} (k : Stmt → OptionT (Except ArenaError) β) :
        (liftM (a.nthChild x 0) >>= fun c => a.stmtUpTo n c >>= k) =
          liftM (a.nthChild x 0) >>= fun c => liftM (a.toStmt c) >>= k :=
      nthChild_bind_congr fun c hc => by rw [hbody c hc]
    rw [declUpTo, toDecl]
    cases hx : a.find x with
    | error e => rfl
    | ok node =>
      simp only [liftM_ok_bind, Except.ok_bind, hpart, hn.firstExprUpTo_eq hs]
      generalize node.data = data
      cases data with
      | global => simp only [liftM_bind]; rfl
      | function =>
        simp only [liftM_bind]
        refine bind_congr fun c => bind_congr fun body => ?_
        cases body <;> rfl
      | _ => rfl

/-- The text is read without giving up, where no way down is longer than allowed. -/
theorem Shallow.snippetUpTo_eq (hn : a.Shallow n x) (hs : a.Shallow (a.size + 1) x) :
    a.snippetUpTo n x = some (a.snippet x) := by
  have htext (data : Payload) : a.nodeTextUpTo n x data = liftM (a.nodeText x data) := by
    rw [nodeTextUpTo, nodeText]
    cases data.category with
    | expression => simp only [hn.exprUpTo_eq hs]; exact (liftM_map _ _).symm
    | statement => simp only [hn.stmtUpTo_eq hs hs]; exact (liftM_map _ _).symm
    | declaration => simp only [hn.declUpTo_eq hs]; exact (liftM_map _ _).symm
    | unit => rfl
  rw [snippetUpTo, snippet]
  cases a.get? x with
  | none => rfl
  | some node =>
    simp only [htext]
    cases a.nodeText x node.data <;> rfl

/-- Where no node is below itself, the readers of all nodes end. -/
theorem Linked.ends (h : a.Linked) (hac : a.Acyclic) : a.Ends x := by
  have hshallow : a.Shallow (a.size + 1) x := by
    intro m y hy
    by_cases hx : x < a.size
    · exact Nat.lt_succ_of_lt (hac.lt_size (fun hc => h.child_lt hc) hx hy)
    · -- a number without a node leads nowhere
      cases m with
      | zero => exact Nat.succ_pos _
      | succ m =>
        obtain ⟨c, hc, -⟩ := belowIn_succ_iff.1 hy
        exact absurd (lt_size_of_mem_childrenOf hc) hx
  refine ⟨fun hc => hac hc, ?_, fun hn => ?_⟩
  · obtain ⟨turns, hturns⟩ := hshallow.exists_countTurn
    refine ⟨turns, ?_⟩
    rw [hturns, Nat.zero_add, sizeBelow]
  · exact Shallow.snippetUpTo_eq (fun _ _ hy => Nat.lt_of_lt_of_le (hshallow hy) hn) hshallow

end

end Arena

namespace ArenaCall

/-- Whatever edits are made of the arena of a program, the readers of all its nodes end, unless one
of the edits puts a node at or below itself or into a child list that has it already. -/
theorem ends_runAll (p : Program) (calls : List ArenaCall) (id : NodeId)
    (hr : noneRelists (ofProgram p) calls = true) (hn : noneNests (ofProgram p) calls = true) :
    (runAll (ofProgram p) calls).Ends id := by
  have hlinked := linked_ofProgram p
  have hacyclic := (wellFormed_ofProgram p).acyclic
  exact (hlinked.runAll hr).ends (hlinked.acyclic_runAll hacyclic hr hn)

/-- In `void f() { { ; } }`, the inner block gives its place to its statement, which is taken out. A
new block takes the statement, and the detached inner block, which lists the statement still, is
read as well. -/
theorem ends_runAll_blocks :
    let p : Program := ⟨[.function "void" "f" [] [.block [.empty]]]⟩
    let calls : List ArenaCall :=
      [.replaceChild 2 3 4, .removeChild 2 4, .alloc .block, .insertChild 5 0 4]
    noneRelists (ofProgram p) calls = true ∧ noneNests (ofProgram p) calls = true ∧
      (runAll (ofProgram p) calls).Ends 3 := by
  intro p calls
  exact ⟨by decide, by decide, ends_runAll p calls 3 (by decide) (by decide)⟩

/-- A block that is put into itself is counted without end. -/
theorem not_ends_runAll :
    ¬ ∀ (p : Program) (calls : List ArenaCall) (id : NodeId),
      (runAll (ofProgram p) calls).Ends id := by
  intro h
  obtain ⟨turns, hturns⟩ := (h ⟨[]⟩ [.alloc .block, .insertChild 1 0 1] 1).count
  rw [countTurn_iterate_of_self (by decide)] at hturns
  injection hturns with hstack
  cases hstack

-- Listing a node twice is enough: in `void f() { { { { ; } } } }`, block 4 keeps an entry for block
-- 5 when 5 is taken out of it, and comes to be below 5 without any insertion at or below itself.
example :
    let p : Program := ⟨[.function "void" "f" [] [.block [.block [.block [.empty]]]]]⟩
    let calls : List ArenaCall :=
      [.replaceChild 3 4 5, .removeChild 3 5, .insertChild 4 0 5, .insertChild 3 0 4,
        .removeChild 4 5, .removeChild 2 3, .insertChild 2 0 5, .replaceChild 5 6 3]
    noneNests (ofProgram p) calls = true ∧
      (runAll (ofProgram p) calls).walk 4 5 = [5, 3, 4, 5] := by
  decide

end ArenaCall

end ShaderShrink

import ShaderShrink.Change.Search
import ShaderShrink.Proofs.Arena.Renumbering
import ShaderShrink.Proofs.Change.Found

/-!
# Finding changes of nodes under other numbers

What is found in an arena depends on its live nodes only, and on their numbers only as far as the
changes that are found name them: where the live nodes are there under other numbers, the same
changes are found in the same order (`FinderConfig.find_renumber`). For each node that is looked at
there is one lemma on what is read: its operands and inner statements, the literal that stands in
for it, and its place under its parent.
-/

namespace ShaderShrink

open Arena

/-- The change of the same nodes under other numbers. -/
def Change.renumber (f : NodeId → NodeId) : Change → Change
  | .simplifyExpr parent target (.operand node) =>
    .simplifyExpr (f parent) (f target) (.operand (f node))
  | .simplifyExpr parent target (.literal value) =>
    .simplifyExpr (f parent) (f target) (.literal value)
  | .removeStatement block statement => .removeStatement (f block) (f statement)
  | .removeDeclaration unit declaration => .removeDeclaration (f unit) (f declaration)
  | .collapseStatement parent target inner => .collapseStatement (f parent) (f target) (f inner)

/-- The opportunity for the same nodes under other numbers. -/
def Opportunity.renumber (f : NodeId → NodeId) (o : Opportunity) : Opportunity :=
  ⟨o.change.renumber f, o.depth⟩

/-- Whether a node is a float literal. -/
def Payload.isFloat : Payload → Bool
  | .float _ => true
  | _ => false

namespace Arena

/-! ## Operands, inner statements and floats -/

section
variable {a : Arena} {f : NodeId → NodeId} {node : Node} {n x : Nat}

/-- The operands of a node keep their places. -/
theorem operandsOf_renumber : operandsOf (node.renumber f) = (operandsOf node).map f := by
  obtain ⟨data, children, parent⟩ := node
  cases data <;> first | rfl | exact List.map_drop.symm

/-- The inner statements of a node keep their places. -/
theorem innerStatementsOf_renumber :
    innerStatementsOf (node.renumber f) = (innerStatementsOf node).map f := by
  obtain ⟨data, children, parent⟩ := node
  cases data with
  | block =>
    simp only [innerStatementsOf, Node.renumber, List.length_map]
    split <;> rfl
  | ifElse | whileLoop => exact List.map_drop.symm
  | _ => rfl

/-- The place of a node among the children of its parent is the same. -/
theorem isStatementPlace_renumber (hnodup : (node.children.map f).Nodup)
    (hx : x ∈ node.children) :
    isStatementPlace (node.renumber f) (f x) = isStatementPlace node x := by
  have hindex : (node.children.map f).idxOf (f x) = node.children.idxOf x := by
    obtain ⟨hi, he⟩ := List.getElem?_eq_some_iff.1 (List.getElem?_idxOf hx)
    have hi' : node.children.idxOf x < (node.children.map f).length := by rwa [List.length_map]
    have hat : (node.children.map f)[node.children.idxOf x] = f x := by rw [List.getElem_map, he]
    rw [← hat, hnodup.idxOf_getElem]
  simp only [isStatementPlace, Node.data_renumber, Node.children_renumber, hindex,
    List.contains_iff_mem.2 hx, List.contains_iff_mem.2 (List.mem_map_of_mem hx)]

/-- There is a float at a node or below it. -/
theorem hasFloatWithin_succ (hn : a.get? x = some node) : a.hasFloatWithin (n + 1) x =
    (node.data.isFloat || node.children.any (a.hasFloatWithin n)) := by
  rw [hasFloatWithin, hn]
  obtain ⟨data, children, parent⟩ := node
  cases data <;> rfl

/-- There is a float below a live node if a walk meets one. -/
theorem Rooted.hasFloatWithin_eq (h : a.Rooted) (hx : a.Live x) : a.hasFloatWithin n x =
    (a.walk n x).any fun y => (a.data? y).any Payload.isFloat := by
  induction n generalizing x with
  | zero => rfl
  | succ n ih =>
    obtain ⟨node, hn⟩ := lt_size_iff.1 (h.lt_size_of_live hx)
    rw [hasFloatWithin_succ hn, walk, List.any_cons, List.any_flatMap, data?_of_get? hn,
      Option.any_some, ← childrenOf_of_get? hn]
    refine congrArg _ (Bool.eq_iff_iff.2 ?_)
    simp only [List.any_eq_true]
    exact exists_congr fun c => and_congr_right fun hc => by rw [ih (hx.child hc), List.any_eq_true]

end

/-! ## The changes of a node -/

namespace Renumbers

variable {f : NodeId → NodeId} {a b : Arena} {config : FinderConfig} {x parent : NodeId}
  {node : Node} (h : Renumbers f a b) (ha : a.WellFormed) (hb : b.WellFormed)
include h ha hb

/-- Whether there is a float at a node or below it is not up to the numbers. -/
theorem hasFloatWithin_eq (hx : a.Live x) :
    b.hasFloatWithin (b.size + 1) (f x) = a.hasFloatWithin (a.size + 1) x := by
  rw [hb.rooted.hasFloatWithin_eq (h.live hx), ha.rooted.hasFloatWithin_eq hx,
    h.walk_size ha.rooted hb.rooted hx, List.any_map]
  refine Bool.eq_iff_iff.2 ?_
  simp only [List.any_eq_true]
  refine exists_congr fun y => and_congr_right fun hy => ?_
  obtain ⟨n, -, hn⟩ := mem_walk_iff.1 hy
  rw [Function.comp_apply, h.data?_eq (hx.trans hn.toBelow)]

/-- The literal that may stand in for a node is not up to the numbers. -/
theorem plausibleLiteral_eq (hx : a.Live x) (data : Payload) :
    b.plausibleLiteral (f x) data = a.plausibleLiteral x data := by
  have hnumber : plausibleLiteral.number b (f x) = plausibleLiteral.number a x := by
    rw [plausibleLiteral.number, plausibleLiteral.number, h.hasFloatWithin_eq ha hb hx]
  unfold plausibleLiteral
  rw [hnumber]

/-- The changes of an expression are the same ones, renumbered. -/
theorem exprChanges_eq (hx : a.Live x) (parent : NodeId) (node : Node) :
    b.exprChanges (f parent) (f x) (node.renumber f) =
      (a.exprChanges parent x node).map (Change.renumber f) := by
  have hoperands : (operandsOf (node.renumber f)).map
        (fun operand => Change.simplifyExpr (f parent) (f x) (.operand operand)) =
      ((operandsOf node).map fun operand =>
        Change.simplifyExpr parent x (.operand operand)).map (Change.renumber f) := by
    rw [operandsOf_renumber, List.map_map, List.map_map]
    rfl
  simp only [exprChanges, hoperands, h.sizeBelow_eq ha.rooted hb.rooted hx, Node.data_renumber,
    h.plausibleLiteral_eq ha hb hx]
  split
  · rw [List.map_append]
    rfl
  · rfl

/-- The changes of a statement are the same ones, renumbered. -/
theorem stmtChanges_eq (hp : a.Live parent) (hx : x ∈ a.childrenOf parent) (node : Node) :
    b.stmtChanges config (f parent) (f x) (node.renumber f) =
      (a.stmtChanges config parent x node).map (Change.renumber f) := by
  obtain ⟨above, hn⟩ := lt_size_iff.1 (ha.lt_size_of_live hp)
  rw [childrenOf_of_get? hn] at hx
  have hplace : isStatementPlace (above.renumber f) (f x) = isStatementPlace above x := by
    refine isStatementPlace_renumber ?_ hx
    rw [← childrenOf_of_get? hn, ← h.childrenOf_eq hp]
    exact hb.nodup _
  have hinner : (innerStatementsOf (node.renumber f)).map
        (fun inner => Change.collapseStatement (f parent) (f x) inner) =
      ((innerStatementsOf node).map fun inner =>
        Change.collapseStatement parent x inner).map (Change.renumber f) := by
    rw [innerStatementsOf_renumber, List.map_map, List.map_map]
    rfl
  -- a hypothesis, so that the test for a block is rewritten with its decision
  have hdata := Node.data_renumber f above
  simp only [stmtChanges, h.get?_eq hp, hn, Option.map_some, hinner, hdata, hplace, List.map_append]
  congr 1
  · split_ifs <;> rfl
  · split_ifs <;> rfl

/-- The changes at a node are the same ones, renumbered. -/
theorem changesAt_eq (hx : a.Live x) :
    b.changesAt config (f x) = (a.changesAt config x).map (Change.renumber f) := by
  obtain ⟨node, hn⟩ := lt_size_iff.1 (ha.lt_size_of_live hx)
  cases hp : node.parent with
  | none => simp [changesAt, h.get?_eq hx, hn, hp]
  | some parent =>
    have hchild := ha.hasChild_of_parent? hx ((parent?_of_get? hn).trans hp)
    obtain ⟨hparent, hmem⟩ := ha.hasChild_iff.1 hchild
    simp only [changesAt, h.get?_eq hx, hn, Option.map_some, Node.parent_renumber, hp,
      Node.data_renumber]
    cases node.data.category with
    | expression =>
      simp only [h.exprChanges_eq ha hb hx]
      split <;> rfl
    | statement => exact h.stmtChanges_eq ha hb hparent hmem node
    | declaration =>
      simp only [declChanges, Node.data_renumber]
      split
      · split
        · split_ifs <;> rfl
        · rfl
      · rfl
    | unit => rfl

/-- The opportunities at a node are the same ones, renumbered. -/
theorem opportunitiesAt_eq (hx : a.Live x) :
    b.opportunitiesAt config (f x) =
      (a.opportunitiesAt config x).map (Opportunity.renumber f) := by
  rw [opportunitiesAt, opportunitiesAt, h.changesAt_eq ha hb hx,
    h.depth_eq ha.rooted hb.rooted hx, List.map_map, List.map_map]
  rfl

end Renumbers

end Arena

/-- Where the live nodes are there under other numbers, the same opportunities are found, in the
same order. -/
theorem FinderConfig.find_renumber {config : FinderConfig} {f : NodeId → NodeId} {a b : Arena}
    (h : Renumbers f a b) (ha : a.WellFormed) (hb : b.WellFormed) :
    (config.find a).map (Opportunity.renumber f) = config.find b := by
  have hsort (os : List Opportunity) :
      (os.mergeSort fun x y => x.depth ≤ y.depth).map (Opportunity.renumber f) =
        (os.map (Opportunity.renumber f)).mergeSort fun x y => x.depth ≤ y.depth :=
    List.map_mergeSort fun _ _ _ _ => rfl
  rw [find, find, hsort, h.preorder_eq ha.rooted hb.rooted, List.flatMap_map, List.map_flatMap]
  congr 1
  refine List.flatMap_congr fun x hx => ?_
  exact (h.opportunitiesAt_eq ha hb (ha.mem_preorder_iff.1 hx)).symm

end ShaderShrink

import ShaderShrink.Proofs.Arena.Splice
import ShaderShrink.Proofs.Change.Lead

/-!
# A change is one local edit of the program

`Change.LocalEdit` says what a change of a program is on the program itself, without an arena: the
part at one position gives way to a part of it, to a literal, or to nothing. Whatever is found in a
program is such an edit (`Change.exists_localEdit`), and `Change.apply_local` adds that the number
of nodes drops by what the part has more than what stays of it.

What is looked at when a change is found, and is not needed to make it, is in `Change.Offered`:
which literals are offered, and which functions are spared.
-/

namespace ShaderShrink

open Arena

/-- The literals that are put in the place of expressions. -/
def LiteralValue.standIns : List LiteralValue := [.int 1, .float "1.0", .bool true]

namespace Change

/-- The node under which a change is made. -/
def parent : Change → NodeId
  | .simplifyExpr parent _ _ | .removeStatement parent _ | .removeDeclaration parent _
  | .collapseStatement parent _ _ => parent

/-- The node that a change replaces or removes. -/
def target : Change → NodeId
  | .simplifyExpr _ target _ | .removeStatement _ target | .removeDeclaration _ target
  | .collapseStatement _ target _ => target

/-- The sort of the node that a change replaces or removes. -/
def category : Change → NodeCategory
  | .simplifyExpr .. => .expression
  | .removeStatement .. | .collapseStatement .. => .statement
  | .removeDeclaration .. => .declaration

/-- The nodes that a change puts in the place of its target. -/
def replacements (a : Arena) : Change → List NodeId
  | .simplifyExpr _ _ (.operand inner) | .collapseStatement _ _ inner => [inner]
  | .simplifyExpr _ _ (.literal _) => [a.size]
  | .removeStatement _ _ | .removeDeclaration _ _ => []

/-- What is looked at when a change is found, apart from links: the sort of its target, the
literal that it offers, and that it does not remove an entry point. -/
structure Offered (config : FinderConfig) (a : Arena) (c : Change) : Prop where
  category : a.category? c.target = some c.category
  standIn : ∀ parent target value, c = .simplifyExpr parent target (.literal value) →
    value ∈ LiteralValue.standIns
  spared : ∀ unit declaration, c = .removeDeclaration unit declaration →
    ∀ returnType name params, a.data? declaration = some (.function returnType name params) →
      name ≠ config.entryPoint

/-- What stays of the part `old` at a position when a change is made there: the operand or the
inner statement that the change names, the literal, or nothing. The outline `above` is the node
that has `old` as a part. -/
inductive Leaves (p : Program) (position : List Nat) (above old : Outline) :
    Change → List Outline → Prop
  | operand {parent target node k : Nat} {part : Outline} :
    old.data.category = .expression → part.data.category = .expression →
    old.parts[k]? = some part → (ofProgram p).nodeAt root (position ++ [k]) = some node →
    Leaves p position above old (.simplifyExpr parent target (.operand node)) [part]
  | literal {parent target : Nat} {value : LiteralValue} :
    old.data.category = .expression → old.parts ≠ [] → value ∈ LiteralValue.standIns →
    Leaves p position above old (.simplifyExpr parent target (.literal value))
      [.node value.toPayload []]
  | inner {parent target inner k : Nat} {part : Outline} :
    old.data.category = .statement → part.data.category = .statement →
    old.parts[k]? = some part → (ofProgram p).nodeAt root (position ++ [k]) = some inner →
    Leaves p position above old (.collapseStatement parent target inner) [part]
  | statement {block statement : Nat} :
    old.data.category = .statement → above.data = .block →
    Leaves p position above old (.removeStatement block statement) []
  | declaration {unit declaration : Nat} :
    old.data.category = .declaration → above.data = .unit →
    Leaves p position above old (.removeDeclaration unit declaration) []

/-- A change leads from the program `p` to the program `q`, which is `p` but for the part `old`,
which is part number `i` of the node `above` at a position: it has given way to the parts
`stays`. -/
structure LocalEdit (p q : Program) (c : Change) (path : List Nat) (i : Nat)
    (above old : Outline) (stays : List Outline) : Prop where
  target_eq : (ofProgram p).nodeAt root (path ++ [i]) = some c.target
  above_eq : p.outline.part? path = some above
  part_eq : above.parts[i]? = some old
  leaves : c.Leaves p (path ++ [i]) above old stays
  outline_eq : q.outline = p.outline.splice stays i path

section
variable {a : Arena} {c : Change} {config : FinderConfig} {id : Nat} {node : Node}
  {p q : Program} {path : List Nat} {i : Nat} {above old : Outline} {stays : List Outline}

/-! ## What is offered -/

/-- The literal that may stand in for a node is one of the stand-ins. -/
theorem plausibleLiteral_mem_standIns (a : Arena) (id : NodeId) (data : Payload) :
    a.plausibleLiteral id data ∈ LiteralValue.standIns := by
  have hnumber : plausibleLiteral.number a id ∈ LiteralValue.standIns := by
    unfold plausibleLiteral.number
    split <;> simp [LiteralValue.standIns]
  unfold plausibleLiteral
  split
  · simp [LiteralValue.standIns]
  · split
    · simp [LiteralValue.standIns]
    · exact hnumber
  · exact hnumber

/-- Whatever is found was offered. -/
theorem offered_of_mem_find {o : Opportunity} (ho : o ∈ config.find a) :
    o.change.Offered config a := by
  obtain ⟨id, -, c, hc, rfl⟩ := FinderConfig.mem_find_iff.1 ho
  obtain ⟨node, parent, hn, -, hfound⟩ := exists_foundAt hc
  have hdata := data?_of_get? hn
  have hcategory {k : NodeCategory} (hk : node.data.category = k) : a.category? id = some k := by
    rw [category?_of_data? hdata, hk]
  cases hfound with
  | operand _ hcat | removal _ hcat | inner _ hcat =>
    refine ⟨hcategory hcat, ?_, ?_⟩
    · rintro _ _ _ ⟨⟩
    · rintro _ _ ⟨⟩
  | literal _ hcat =>
    refine ⟨hcategory hcat, ?_, ?_⟩
    · rintro _ _ _ ⟨⟩
      exact plausibleLiteral_mem_standIns a id node.data
    · rintro _ _ ⟨⟩
  | declaration _ hcat hspared =>
    refine ⟨hcategory hcat, ?_, ?_⟩
    · rintro _ _ _ ⟨⟩
    · rintro _ _ ⟨⟩ returnType name params hf
      exact hspared returnType name params (Option.some.inj (hdata.symm.trans hf))

/-! ## The edit -/

/-- A change whose precondition holds is about a live node and one of its children. -/
theorem hasChild_of_holds (hh : c.holds a = true) : a.hasChild c.parent c.target = true := by
  match c with
  | .simplifyExpr _ _ (.operand _) | .collapseStatement _ _ _ => exact (Bool.and_eq_true_iff.1 hh).1
  | .simplifyExpr _ _ (.literal _) | .removeStatement _ _ | .removeDeclaration _ _ => exact hh

/-- Grafting one node in the place of another splices it in there. -/
theorem spliced_graft {b : Arena} {parent target inner : Nat}
    (hd : ∀ x data, a.data? x = some data → b.data? x = some data)
    (hkids : ∀ x, b.childrenOf x = (a.graft parent target inner).childrenOf x)
    (hp : parent < a.size) (ht : target ∈ a.childrenOf parent) :
    a.Spliced b parent ((a.childrenOf parent).idxOf target) [inner] where
  data := hd _ _
  others hx := by rw [hkids, childrenOf_graft hp, if_neg hx]
  children := by
    rw [hkids, childrenOf_graft hp, if_pos rfl, List.set_eq_take_append_cons_drop,
      if_pos (List.idxOf_lt_length_of_mem ht)]
    simp

/-- Pruning a child splices nothing in where it was. -/
theorem spliced_prune {parent child : Nat} (hp : parent < a.size) :
    a.Spliced (a.prune parent child) parent ((a.childrenOf parent).idxOf child) [] where
  data hd := by rwa [data?_prune]
  others hx := by rw [childrenOf_prune hp, if_neg hx]
  children := by
    rw [childrenOf_prune hp, if_pos rfl, List.erase_eq_eraseIdx_of_idxOf rfl,
      List.eraseIdx_eq_take_drop_succ, List.append_nil]

/-- The target of a change gives way to its replacements. -/
theorem spliced_after (h : a.WellFormed) (hh : c.holds a = true) :
    a.Spliced (c.after a) c.parent ((a.childrenOf c.parent).idxOf c.target)
      (c.replacements a) := by
  have hchild := hasChild_of_holds hh
  have hp := lt_size_of_hasChild hchild
  have ht := (h.hasChild_iff.1 hchild).2
  match c with
  | .simplifyExpr _ _ (.operand _) | .collapseStatement _ _ _ =>
    exact spliced_graft (fun x data hd => by rwa [after, data?_graft]) (fun _ => rfl) hp ht
  | .simplifyExpr _ _ (.literal _) =>
    refine spliced_graft (fun x data hd => ?_) (fun x => childrenOf_graft_alloc hp) hp ht
    rwa [after, data?_graft, data?_alloc_of_lt (lt_size_of_data? hd)]
  | .removeStatement _ _ | .removeDeclaration _ _ => exact spliced_prune hp

/-- A list that has a statement in it is that of a block, and one that has a declaration in it is
that of a unit. -/
theorem data_of_removal (h : a.WellFormed) {parent child : NodeId} {data part : Payload}
    (hc : child ∈ a.childrenOf parent) (hd : a.data? parent = some data)
    (hp : a.data? child = some part) (hv : data.isVariadic = true) :
    (part.category = .statement → data = .block) ∧
      (part.category = .declaration → data = .unit) := by
  obtain ⟨k, hk⟩ := List.mem_iff_getElem?.1 hc
  obtain ⟨data', slot, part', hd', hs, hp', ha⟩ := h.slots hk
  cases hd.symm.trans hd'
  cases hp.symm.trans hp'
  cases data with
  | unit =>
    cases hs
    have ha : part.category = .declaration := of_decide_eq_true ha
    simp [ha]
  | block =>
    cases hs
    have ha : part.category = .statement := of_decide_eq_true ha
    simp [ha]
  | _ => cases hv

/-- A part of the target that a change names stays in its place. -/
theorem exists_part (hat : old.At (ofProgram p) c.target) {inner : NodeId}
    (htarget : (ofProgram p).nodeAt root (path ++ [i]) = some c.target)
    (hinner : inner ∈ (ofProgram p).childrenOf c.target) :
    ∃ k part, old.parts[k]? = some part ∧
      (ofProgram p).nodeAt root (path ++ [i] ++ [k]) = some inner ∧
      part.At (ofProgram p) inner := by
  obtain ⟨k, hk⟩ := List.mem_iff_getElem?.1 hinner
  have hnode : (ofProgram p).nodeAt c.target [k] = some inner :=
    nodeAt_cons_eq_some_iff.2 ⟨inner, hk, rfl⟩
  obtain ⟨part, hpart, hatPart⟩ := hat.part hnode
  rw [Outline.part?_singleton] at hpart
  exact ⟨k, part, hpart, by rw [nodeAt_append htarget, hnode], hatPart⟩

/-- What stays of the target of a change is what its replacements show afterwards. -/
theorem exists_leaves (hs : c.Suits (ofProgram p)) (hh : c.holds (ofProgram p) = true)
    (hoffered : c.Offered config (ofProgram p))
    (htarget : (ofProgram p).nodeAt root (path ++ [i]) = some c.target)
    (habove : above.At (ofProgram p) c.parent) (hold : old.At (ofProgram p) c.target) :
    ∃ stays, c.Leaves p (path ++ [i]) above old stays ∧
      Outline.AllAt (c.after (ofProgram p)) stays (c.replacements (ofProgram p)) := by
  have h := wellFormed_ofProgram p
  have hchild := (h.hasChild_iff.1 (hasChild_of_holds hh)).2
  have hspliced := spliced_after h hh
  have hcat : old.data.category = c.category :=
    Option.some.inj ((category?_of_data? hold.data?).symm.trans hoffered.category)
  -- a part of the target is not above its target, and shows what it showed
  have hshown {part : Outline} {inner : NodeId} (hinner : inner ∈ (ofProgram p).childrenOf c.target)
      (hpart : part.At (ofProgram p) inner) :
      Outline.AllAt (c.after (ofProgram p)) [part] [inner] := by
    refine Outline.AllAt.of_spliced hspliced ⟨inner, [], rfl, hpart, rfl⟩ ?_
    intro x hx hbelow
    rw [List.mem_singleton.1 hx] at hbelow
    have hlt := Nat.lt_trans (h.lt_child hchild) (h.lt_child hinner)
    exact Nat.not_le.2 hlt (h.le_of_below hbelow)
  match c, hs with
  | .simplifyExpr parent target (.operand inner), hs =>
    have hinner := (h.hasChild_iff.1 (Bool.and_eq_true_iff.1 hh).2).2
    obtain ⟨k, part, hpart, hnode, hat⟩ := exists_part hold htarget hinner
    have hcat' := h.category?_child hinner hs
    rw [category?_of_data? hat.data?, Option.some_inj] at hcat'
    exact ⟨[part], .operand hcat hcat' hpart hnode, hshown hinner hat⟩
  | .simplifyExpr parent target (.literal value), ⟨_, hne⟩ =>
    refine ⟨[.node value.toPayload []], .literal hcat ?_ (hoffered.standIn _ _ _ rfl), ?_⟩
    · obtain ⟨data, parts⟩ := old
      rintro rfl
      exact hne (List.length_eq_zero_iff.1 hold.2.length_eq.symm)
    · refine ⟨_, [], rfl, ⟨?_, ?_⟩, rfl⟩
      · rw [after, data?_graft, data?_of_get? get?_alloc_size]
      · rw [hspliced.others (Nat.ne_of_gt (lt_size_of_mem_childrenOf hchild)),
          childrenOf_of_size_le (Nat.le_refl _)]
        rfl
  | .removeStatement block statement, ⟨data, hd, hv⟩ =>
    have hdata := (data_of_removal h hchild habove.data? hold.data?
      (Option.some.inj (habove.data?.symm.trans hd) ▸ hv)).1 hcat
    exact ⟨[], .statement hcat hdata, rfl⟩
  | .removeDeclaration unit declaration, ⟨data, hd, hv⟩ =>
    have hdata := (data_of_removal h hchild habove.data? hold.data?
      (Option.some.inj (habove.data?.symm.trans hd) ▸ hv)).2 hcat
    exact ⟨[], .declaration hcat hdata, rfl⟩
  | .collapseStatement parent target inner, ⟨_, hinnerCat, _⟩ =>
    have hinner := (h.hasChild_iff.1 (Bool.and_eq_true_iff.1 hh).2).2
    obtain ⟨k, part, hpart, hnode, hat⟩ := exists_part hold htarget hinner
    rw [category?_of_data? hat.data?, Option.some_inj] at hinnerCat
    exact ⟨[part], .inner hcat hinnerCat hpart hnode, hshown hinner hat⟩

/-- Whatever is found in a program is made, and it is a local edit of the program. -/
theorem exists_localEdit {o : Opportunity} (ho : o ∈ config.find (ofProgram p)) :
    ∃ edit after q path i above old stays,
      o.change.apply (ofProgram p) = (.ok edit, after) ∧ after.WellFormed ∧
      after.toProgram = .ok q ∧ q.outline.At after root ∧
      o.change.LocalEdit p q path i above old stays := by
  have h := wellFormed_ofProgram p
  obtain ⟨hs, hh⟩ := FinderConfig.found_of_mem_find h ho
  obtain ⟨happly, hshrinks⟩ := shrinks_of_holds h hs hh
  obtain ⟨hlive, hchild⟩ := h.hasChild_iff.1 (hasChild_of_holds hh)
  obtain ⟨path, hpath⟩ := hlive.exists_nodeAt
  have hindex := List.getElem?_idxOf hchild
  have htarget : (ofProgram p).nodeAt root
      (path ++ [((ofProgram p).childrenOf o.change.parent).idxOf o.change.target]) =
        some o.change.target := by
    rw [nodeAt_append hpath]
    exact nodeAt_cons_eq_some_iff.2 ⟨_, hindex, rfl⟩
  obtain ⟨above, habove, hatAbove⟩ := (outline_at_ofProgram p).part hpath
  obtain ⟨old, hold, hatOld⟩ := (outline_at_ofProgram p).part htarget
  obtain ⟨stays, hleaves, hnews⟩ :=
    exists_leaves hs hh (offered_of_mem_find ho) htarget hatAbove hatOld
  have hsplice := (outline_at_ofProgram p).splice h (spliced_after h hh) hnews .self hpath
  have hw := hshrinks.wellFormed h
  obtain ⟨q, hq, hat⟩ := hw.exists_toProgram
  rw [Outline.part?_append habove, Outline.part?_singleton] at hold
  exact ⟨_, _, q, path, _, above, old, stays, happly, hw, hq, hat, htarget, habove, hold, hleaves,
    hat.unique hsplice⟩

/-- The part that a local edit replaces has a position. -/
theorem LocalEdit.old_eq (e : c.LocalEdit p q path i above old stays) :
    p.outline.part? (path ++ [i]) = some old := by
  rw [Outline.part?_append e.above_eq, Outline.part?_singleton, e.part_eq]

/-- The target of a local edit has the form of the part. -/
theorem LocalEdit.at_target (e : c.LocalEdit p q path i above old stays) :
    old.At (ofProgram p) c.target :=
  (outline_at_ofProgram p).of_part e.old_eq e.target_eq

/-- What stays is smaller than what it is a part of. -/
theorem Leaves.sizeAll_lt {position : List Nat} (h : c.Leaves p position above old stays) :
    Outline.sizeAll stays < old.size := by
  cases h with
  | operand _ _ hpart _ | inner _ _ hpart _ => exact Outline.size_lt_of_part hpart
  | literal _ hne _ =>
    obtain ⟨part, hpart⟩ := List.exists_mem_of_ne_nil _ hne
    obtain ⟨k, hk⟩ := List.mem_iff_getElem?.1 hpart
    have h₁ := Outline.size_lt_of_part hk
    have h₂ := part.size_pos
    show 0 + 1 + 0 < old.size
    omega
  | statement | declaration => exact old.size_pos

/-- Applying a change that was found in a program is one local edit: the change is made, and what is
read from the arena behind it is the program in which the part at the position of the target has
given way to the operand or the inner statement that the change names, to the literal, or to
nothing. The number of nodes drops by as many as the part has more than what stays of it, which is
one at least. -/
theorem apply_local (config : FinderConfig) (p : Program) (o : Opportunity)
    (ho : o ∈ config.find (ofProgram p)) :
    ∃ edit after q path i above old stays,
      o.change.apply (ofProgram p) = (.ok edit, after) ∧ after.toProgram = .ok q ∧
      o.change.LocalEdit p q path i above old stays ∧
      after.liveCount + (old.size - Outline.sizeAll stays) = (ofProgram p).liveCount ∧
      1 ≤ old.size - Outline.sizeAll stays := by
  obtain ⟨edit, after, q, path, i, above, old, stays, happly, hw, hq, hat, e⟩ := exists_localEdit ho
  refine ⟨edit, after, q, path, i, above, old, stays, happly, hq, e, ?_, ?_⟩
  · have hpart : p.outline.part? (path ++ [i]) = some old := by
      rw [Outline.part?_append e.above_eq, Outline.part?_singleton, e.part_eq]
    have hsize := Outline.size_splice hpart stays
    have hlt := e.leaves.sizeAll_lt
    rw [hw.liveCount_eq hat, ← q.size_outline, e.outline_eq, liveCount_ofProgram, ← p.size_outline]
    omega
  · exact Nat.sub_pos_of_lt e.leaves.sizeAll_lt

/-- In `void main() { if (a) { return; } discard; }`, the branch takes the place of the `if`. -/
theorem apply_local_branch :
    let p : Program := ⟨[.function "void" "main" []
      [.ifElse (.ident "a") (.block [.ret none]) none, .discard]]⟩
    let o : Opportunity := ⟨.collapseStatement 2 3 5, 3⟩
    o ∈ FinderConfig.default.find (ofProgram p) ∧
    ∃ edit after q path i above old stays,
      o.change.apply (ofProgram p) = (.ok edit, after) ∧ after.toProgram = .ok q ∧
      o.change.LocalEdit p q path i above old stays ∧
      after.liveCount + (old.size - Outline.sizeAll stays) = 8 ∧
      1 ≤ old.size - Outline.sizeAll stays := by
  intro p o
  have ho : o ∈ FinderConfig.default.find (ofProgram p) := by
    rw [FinderConfig.find, List.mem_mergeSort]
    decide
  have hcount : (ofProgram p).liveCount = 8 := by decide
  exact ⟨ho, hcount ▸ apply_local .default p o ho⟩

end

end Change

end ShaderShrink

import ShaderShrink.Proofs.Change.Local

/-!
# Programs in which nothing is found

If everything is looked for, nothing is found in a program exactly if all its declarations are entry
points with empty bodies (`FinderConfig.find_eq_nil_iff`). Removals alone decide this: every other
declaration can be removed, and so can every statement of a body, while below an empty body there is
nothing.
-/

namespace ShaderShrink

open Arena

/-- Looks for everything, and spares the functions of the given name. -/
def FinderConfig.everything (entry : String) : FinderConfig := ⟨true, true, true, true, entry⟩

/-- All declarations are functions of the given name with empty bodies. -/
def Program.IsHollow (entry : String) (p : Program) : Prop :=
  ∀ d ∈ p.declarations, ∃ returnType params, d = .function returnType entry params []

section
variable {a : Arena} {parent child : Nat} {data : Payload} {config : FinderConfig}

/-- The removal of a declaration is found, unless the declaration is an entry point. -/
theorem Arena.WellFormed.mem_find_removeDeclaration (h : a.WellFormed) (hp : a.Live parent)
    (hc : child ∈ a.childrenOf parent) (hd : a.data? child = some data)
    (hcat : data.category = .declaration) (hr : config.removeDeclarations = true)
    (hspared : ∀ returnType params, data ≠ .function returnType config.entryPoint params) :
    ⟨.removeDeclaration parent child, a.depth child⟩ ∈ config.find a := by
  refine FinderConfig.mem_find_iff.2 ⟨child, h.mem_preorder_iff.2 (hp.child hc), _, ?_, rfl⟩
  obtain ⟨node, hn, rfl⟩ := Option.map_eq_some_iff.1 hd
  have hparent := h.parent_of_live hp hc
  rw [parent?_of_get? hn] at hparent
  simp only [changesAt, hn, hparent, hcat, hr, if_true, declChanges]
  split
  · next returnType name params hf =>
    rw [if_neg fun he : name = config.entryPoint => hspared returnType params (he ▸ hf)]
    exact List.mem_singleton_self _
  · exact List.mem_singleton_self _

/-- The removal of a statement of a block is found. -/
theorem Arena.WellFormed.mem_find_removeStatement (h : a.WellFormed) (hp : a.Live parent)
    (hc : child ∈ a.childrenOf parent) (habove : a.data? parent = some .block)
    (hr : config.removeStatements = true) :
    ⟨.removeStatement parent child, a.depth child⟩ ∈ config.find a := by
  refine FinderConfig.mem_find_iff.2 ⟨child, h.mem_preorder_iff.2 (hp.child hc), _, ?_, rfl⟩
  obtain ⟨i, hi⟩ := List.mem_iff_getElem?.1 hc
  obtain ⟨data, slot, part, hd, hslot, hpart, ha⟩ := h.slots hi
  rw [habove] at hd
  cases hd
  cases hslot
  obtain ⟨node, hn, rfl⟩ := Option.map_eq_some_iff.1 hpart
  obtain ⟨above, hab, hblock⟩ := Option.map_eq_some_iff.1 habove
  have hparent := h.parent_of_live hp hc
  rw [parent?_of_get? hn] at hparent
  have hcat : node.data.category = .statement := of_decide_eq_true ha
  simp only [changesAt, hn, hparent, hcat, stmtChanges, hab, hblock, hr]
  exact List.mem_append_left _ (List.mem_singleton_self _)

end

section
variable {entry : String} {p : Program} {above old : Outline} {path : List Nat} {i : Nat}

/-- A program of empty entry points has no other parts than functions and their bodies. -/
theorem Program.IsHollow.part_cases (h : p.IsHollow entry)
    (habove : p.outline.part? path = some above) (hold : above.parts[i]? = some old) :
    (∃ returnType params, old = .node (.function returnType entry params) [.node .block []]) ∨
      above.data.category = .declaration ∧ old = .node .block [] := by
  have hdecl {k : Nat} {t : Outline} (ht : p.outline.parts[k]? = some t) :
      ∃ returnType params, t = .node (.function returnType entry params) [.node .block []] := by
    obtain ⟨d, hd, rfl⟩ := List.mem_map.1 (List.mem_of_getElem? ht)
    obtain ⟨returnType, params, rfl⟩ := h d hd
    exact ⟨returnType, params, rfl⟩
  cases path with
  | nil =>
    cases habove
    exact .inl (hdecl hold)
  | cons k path =>
    obtain ⟨t, ht, habove⟩ := Outline.part?_cons_eq_some_iff.1 habove
    obtain ⟨returnType, params, rfl⟩ := hdecl ht
    cases path with
    | nil =>
      cases habove
      exact .inr ⟨rfl, List.mem_singleton.1 (List.mem_of_getElem? hold)⟩
    | cons j path =>
      obtain ⟨u, hu, habove⟩ := Outline.part?_cons_eq_some_iff.1 habove
      cases List.mem_singleton.1 (List.mem_of_getElem? hu)
      -- below the body there is nothing
      cases path with
      | nil =>
        cases habove
        cases hold
      | cons l path => cases habove

/-- Nothing is found in a program of empty entry points. -/
theorem Program.IsHollow.not_mem_find {config : FinderConfig} {o : Opportunity}
    (h : p.IsHollow config.entryPoint) : o ∉ config.find (ofProgram p) := by
  intro ho
  obtain ⟨edit, after, q, path, i, above, old, stays, -, -, -, -, e⟩ := Change.exists_localEdit ho
  have hat := e.at_target.data?
  have hoffered := Change.offered_of_mem_find ho
  have hleaves := e.leaves
  generalize o.change = c at hat hoffered hleaves
  rcases h.part_cases e.above_eq e.part_eq with ⟨returnType, params, rfl⟩ | ⟨hcat, rfl⟩
  · cases hleaves with
    | declaration => exact hoffered.spared _ _ rfl returnType _ params hat rfl
    | operand hcat | literal hcat | inner hcat | statement hcat => cases hcat
  · cases hleaves with
    | inner _ _ hpart => cases hpart
    | statement _ habove =>
      rw [habove] at hcat
      cases hcat
    | operand hcat | literal hcat | declaration hcat => cases hcat

end

/-- Nothing is found in a program exactly if all its declarations are entry points with empty
bodies. -/
theorem FinderConfig.find_eq_nil_iff (entry : String) (p : Program) :
    (everything entry).find (ofProgram p) = [] ↔ p.IsHollow entry := by
  constructor
  · intro hnil d hd
    have h := wellFormed_ofProgram p
    obtain ⟨i, hi⟩ := List.mem_iff_getElem?.1 hd
    have hpart : p.outline.parts[i]? = some d.outline := by
      rw [Program.outline, Outline.parts, List.getElem?_map, hi]
      rfl
    obtain ⟨c, hc, hat⟩ := (outline_at_ofProgram p).2.exists_getElem? hpart
    have hc := List.mem_of_getElem? hc
    have hnone {o : Opportunity} (ho : o ∈ (everything entry).find (ofProgram p)) : False :=
      List.not_mem_nil (hnil ▸ ho)
    cases d with
    | global ty name init =>
      exact (hnone (h.mem_find_removeDeclaration .self hc hat.data? rfl rfl nofun)).elim
    | function returnType name params body =>
      have hname : name = entry := by
        by_contra hne
        refine hnone (h.mem_find_removeDeclaration .self hc hat.data? rfl rfl fun _ _ he => ?_)
        injection he with _ hname _
        exact hne hname
      cases body with
      | nil => exact ⟨returnType, params, by rw [hname]⟩
      | cons s rest =>
        -- the first statement can be removed
        obtain ⟨b, hb, hatBody⟩ := hat.2.exists_getElem? (i := 0) rfl
        obtain ⟨x, hx, -⟩ := hatBody.2.exists_getElem? (i := 0) rfl
        have hlive := (Below.self.child hc).child (List.mem_of_getElem? hb)
        exact (hnone (h.mem_find_removeStatement hlive (List.mem_of_getElem? hx) hatBody.data?
          rfl)).elim
  · intro h
    exact List.eq_nil_iff_forall_not_mem.2 fun o => Program.IsHollow.not_mem_find h

end ShaderShrink

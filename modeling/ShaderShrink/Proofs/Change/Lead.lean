import ShaderShrink.Proofs.Arena.Layout
import ShaderShrink.Proofs.Change.Found

/-!
# The program that a change leads to

`Program.change?` makes a change in the arena of a program and reads the result. A reduction makes
it in an arena with literals left behind (`Arena.Padded`), where a new literal has another number;
`FinderConfig.leads_of_mem_find` says that this makes no difference: the precondition of everything
that was found holds, making it leads to the same program, which is smaller, and undoing it leaves
nothing but literals behind.
-/

namespace ShaderShrink

namespace Arena

variable {a b : Arena} {c : Change} {t : Outline} {x parent target inner child : Nat}

/-- An arena evolves into one with literals behind it. -/
theorem Padded.evolves (h : b.Padded a) : b.Evolves a :=
  ⟨fun hd => by rw [h.data? (lt_size_of_data? hd), hd], fun _ _ => by rw [h.childrenOf]⟩

/-- Literals behind an arena are nobody's children. -/
theorem Padded.hasChild (h : b.Padded a) (hb : b.WellFormed) :
    a.hasChild parent child = b.hasChild parent child := by
  rw [Bool.eq_iff_iff, (h.wellFormed hb).hasChild_iff, hb.hasChild_iff, h.live_iff, h.childrenOf]

/-- Preconditions do not see the literals left behind. -/
theorem Padded.holds (h : b.Padded a) (hb : b.WellFormed) : c.holds a = c.holds b := by
  match c with
  | .simplifyExpr _ _ (.operand _) | .collapseStatement _ _ _ =>
    simp only [Change.holds, h.hasChild hb]
  | .simplifyExpr _ _ (.literal _) | .removeStatement _ _ | .removeDeclaration _ _ =>
    simp only [Change.holds, h.hasChild hb]

/-- A node that has a child is in the arena. -/
theorem lt_size_of_hasChild (h : a.hasChild parent child = true) : parent < a.size :=
  lt_size_of_mem_childrenOf (hasChild_iff.1 h).2.1

/-- The literals left behind are not read. -/
theorem Padded.toProgram_eq {p : Program} (h : (ofProgram p).Padded a) : a.toProgram = .ok p := by
  refine toProgram_of_at (h.wellFormed (wellFormed_ofProgram p)) ?_
  refine Outline.At.map (f := id) (fun y data hd => ?_) (fun y => ?_) (outline_at_ofProgram p)
  · rw [id, h.data? (lt_size_of_data? hd), hd]
  · rw [List.map_id, id, h.childrenOf]

/-! ## Edits of padded arenas -/

/-- Literals behind an arena do not matter to what is grafted in it. -/
theorem Padded.at_graft (h : b.Padded a) (hp : parent < b.size)
    (ht : t.At (b.graft parent target inner) x) : t.At (a.graft parent target inner) x := by
  refine Outline.At.map (f := id) (fun y data hd => ?_) (fun y => ?_) ht
  · rw [data?_graft] at hd ⊢
    rw [id, h.data? (lt_size_of_data? hd), hd]
  · rw [List.map_id, id, childrenOf_graft (Nat.lt_of_lt_of_le hp h.size_le), childrenOf_graft hp,
      h.childrenOf, h.childrenOf]

/-- Literals behind an arena do not matter to what is pruned in it. -/
theorem Padded.at_prune (h : b.Padded a) (hp : parent < b.size)
    (ht : t.At (b.prune parent child) x) : t.At (a.prune parent child) x := by
  refine Outline.At.map (f := id) (fun y data hd => ?_) (fun y => ?_) ht
  · rw [data?_prune] at hd ⊢
    rw [id, h.data? (lt_size_of_data? hd), hd]
  · rw [List.map_id, id, childrenOf_prune (Nat.lt_of_lt_of_le hp h.size_le), childrenOf_prune hp,
      h.childrenOf, h.childrenOf]

/-- A new literal has the number behind the last one, whatever that is. -/
theorem Padded.at_graft_alloc (h : b.Padded a) (hb : b.WellFormed) {data : Payload}
    (hp : parent < b.size) (hx : x < b.size)
    (ht : t.At ((b.alloc data).1.graft parent target b.size) x) :
    t.At ((a.alloc data).1.graft parent target a.size) x := by
  have hpa := Nat.lt_of_lt_of_le hp h.size_le
  let f (y : NodeId) : NodeId := if y = b.size then a.size else y
  have hf {y : NodeId} (hy : y ≠ b.size) : f y = y := if_neg hy
  have hfs : f b.size = a.size := if_pos rfl
  have hkids (y : NodeId) : (b.childrenOf y).map f = b.childrenOf y := by
    have hid : ∀ c ∈ b.childrenOf y, f c = id c := fun c hc => hf (Nat.ne_of_lt (hb.child_lt hc))
    rw [List.map_congr_left hid, List.map_id]
  rw [← hf (Nat.ne_of_lt hx)]
  refine Outline.At.map (f := f) (fun y data' hd => ?_) (fun y => ?_) ht
  · rw [data?_graft, data?_alloc] at hd ⊢
    by_cases hy : y = b.size
    · rw [if_pos hy] at hd
      rw [hy, hfs, if_pos rfl, hd]
    · rw [if_neg hy] at hd
      have hlt := lt_size_of_data? hd
      rw [hf hy, if_neg (Nat.ne_of_lt (Nat.lt_of_lt_of_le hlt h.size_le)), h.data? hlt, hd]
  · rw [childrenOf_graft_alloc hpa, childrenOf_graft_alloc hp, childrenOf_graft hpa,
      childrenOf_graft hp]
    by_cases hy : y = b.size
    · rw [hy, hfs, if_neg (Nat.ne_of_gt hpa), if_neg (Nat.ne_of_gt hp),
        childrenOf_of_size_le (Nat.le_refl _), childrenOf_of_size_le (Nat.le_refl _)]
      rfl
    · rw [hf hy, h.childrenOf, h.childrenOf]
      split
      · rw [List.map_set, hkids, hfs]
      · rw [hkids]

/-- A change leads to the same outline with and without literals left behind. -/
theorem Padded.at_after (h : b.Padded a) (hb : b.WellFormed) (hh : c.holds b = true)
    (ht : t.At (c.after b) root) : t.At (c.after a) root := by
  match c with
  | .simplifyExpr _ _ (.operand _) =>
    exact h.at_graft (lt_size_of_hasChild (Bool.and_eq_true_iff.1 hh).1) ht
  | .collapseStatement _ _ _ =>
    exact h.at_graft (lt_size_of_hasChild (Bool.and_eq_true_iff.1 hh).1) ht
  | .simplifyExpr _ _ (.literal _) =>
    exact h.at_graft_alloc hb (lt_size_of_hasChild hh) hb.root_lt ht
  | .removeStatement _ _ => exact h.at_prune (lt_size_of_hasChild hh) ht
  | .removeDeclaration _ _ => exact h.at_prune (lt_size_of_hasChild hh) ht

end Arena

open Arena

/-- The program that a change of a program leads to, if the change can be made. -/
def Program.change? (p : Program) (c : Change) : Option Program :=
  match c.apply (ofProgram p) with
  | (.ok _, a) => a.toProgram.toOption
  | (.error _, _) => none

/-- In the arena, the change leads to the program `q`, and undoing it leads back to the program `p`
with literals behind it. -/
structure Change.Leads (a : Arena) (c : Change) (p q : Program) (edit : Edit) (after back : Arena) :
    Prop where
  holds : c.holds a = true
  apply_eq : c.apply a = (.ok edit, after)
  toProgram_eq : after.toProgram = .ok q
  revert_eq : edit.revert after = .ok back
  padded : (ofProgram p).Padded back

/-- Whatever was found in a program leads to a smaller one, and it leads to the same one from all
arenas in which nothing but literals was left behind. -/
theorem FinderConfig.leads_of_mem_find {config : FinderConfig} {p : Program} {o : Opportunity}
    (ho : o ∈ config.find (ofProgram p)) :
    ∃ q, p.change? o.change = some q ∧ q.size < p.size ∧ ∀ a, (ofProgram p).Padded a →
      ∃ edit after back, o.change.Leads a p q edit after back := by
  have hp := wellFormed_ofProgram p
  obtain ⟨hs, hh⟩ := found_of_mem_find hp ho
  obtain ⟨happly, s⟩ := Change.shrinks_of_holds hp hs hh
  obtain ⟨q, hq, hat⟩ := (s.wellFormed hp).exists_toProgram
  refine ⟨q, ?_, ?_, ?_⟩
  · rw [Program.change?, happly]
    simp only [hq]
    rfl
  · have hlt := s.liveCount_lt hp
    rwa [liveCount_ofProgram, (s.wellFormed hp).liveCount_eq hat] at hlt
  · intro a ha
    have hw := ha.wellFormed hp
    have hh' : o.change.holds a = true := by rw [ha.holds hp, hh]
    obtain ⟨happly', s'⟩ := Change.shrinks_of_holds hw (hs.mono ha.evolves) hh'
    exact ⟨_, _, _, hh', happly', toProgram_of_at (s'.wellFormed hw) (ha.at_after hp hh hat),
      s'.makes.revert hw, s'.makes.padded ha⟩

/-- The programs that one change of a program leads to, in the order in which the changes are
tried. -/
def FinderConfig.candidates (config : FinderConfig) (p : Program) : List Program :=
  (config.find (ofProgram p)).filterMap fun o => p.change? o.change

/-- Every change that is found leads to a candidate. -/
theorem FinderConfig.map_candidates (config : FinderConfig) (p : Program) :
    (config.candidates p).map some =
      (config.find (ofProgram p)).map fun o => p.change? o.change := by
  have hsome : ∀ o ∈ config.find (ofProgram p),
      (p.change? o.change).map some = some (p.change? o.change) := by
    intro o ho
    obtain ⟨q, hq, -⟩ := leads_of_mem_find ho
    rw [hq]
    rfl
  rw [candidates, List.map_filterMap, List.filterMap_congr hsome, List.filterMap_eq_map']

/-- Candidates are smaller than the program. -/
theorem FinderConfig.size_lt_of_mem_candidates {config : FinderConfig} {p q : Program}
    (h : q ∈ config.candidates p) : q.size < p.size := by
  obtain ⟨o, ho, hq⟩ := List.mem_filterMap.1 h
  obtain ⟨q', hq', hlt, -⟩ := leads_of_mem_find ho
  rw [hq, Option.some_inj] at hq'
  exact hq' ▸ hlt

end ShaderShrink

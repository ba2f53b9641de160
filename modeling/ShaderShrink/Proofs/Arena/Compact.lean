import ShaderShrink.Proofs.Arena.Order
import ShaderShrink.Proofs.Change.Steps

/-!
# Compacting

Laying a program out and reading it back are inverse to each other, and the nodes of a program that
is laid out are numbered in the order of a walk (`Arena.preorder_ofProgram`). So compacting a
well-formed arena renumbers its live nodes in the order of a walk and does nothing else
(`Arena.WellFormed.exists_compact`). `Arena.compact_run` says this of all arenas that trying and
undoing changes leads to.
-/

namespace ShaderShrink.Arena

/-- A walk in the arena of a program meets one number after another. -/
theorem preorder_ofProgram (p : Program) :
    (ofProgram p).preorder = List.range (ofProgram p).size := by
  have hle : 0 + p.outline.height ≤ (ofProgram p).size :=
    (outline_at_ofProgram p).height_le (wellFormed_ofProgram p)
  have hwalk := (laidAt_ofProgram p).walk_eq (n := (ofProgram p).size + 1) (by omega)
  rwa [p.size_outline, ← size_ofProgram, ← List.range_eq_range'] at hwalk

/-- Compacting gives the arena of the program that is read. -/
theorem compact_eq_ofProgram {a : Arena} {p : Program} (h : a.toProgram = .ok p) :
    a.compact = .ok (ofProgram p) := by
  rw [compact, h]
  rfl

/-- Compacting the arena of a program changes nothing. -/
theorem compact_ofProgram (p : Program) : (ofProgram p).compact = .ok (ofProgram p) :=
  compact_eq_ofProgram (toProgram_ofProgram p)

/-- All nodes of a program are live. -/
theorem isLive_ofProgram {p : Program} {x : Nat} (hx : x < (ofProgram p).size) :
    (ofProgram p).isLive x = true := by
  have hw := wellFormed_ofProgram p
  rw [hw.rooted.isLive_iff, ← hw.mem_preorder_iff, preorder_ofProgram, List.mem_range]
  exact hx

/-- What compacting an arena gives: an arena with the same program, in which all nodes are live and
are copies of the live nodes of the other arena, in the order of a walk. -/
structure CompactedTo (a b : Arena) : Prop where
  compact_eq : a.compact = .ok b
  toProgram_eq : b.toProgram = a.toProgram
  size_eq : b.size = a.liveCount
  isLive {i : NodeId} : i < b.size → b.isLive i = true
  data?_eq {i x : NodeId} : a.preorder[i]? = some x → b.data? i = a.data? x
  childrenOf_eq {i x : NodeId} :
    a.preorder[i]? = some x → b.childrenOf i = (a.childrenOf x).map a.preorder.idxOf

/-- A well-formed arena can be compacted. -/
theorem WellFormed.exists_compact {a : Arena} (h : a.WellFormed) : ∃ b, a.CompactedTo b := by
  obtain ⟨p, hp, hat⟩ := h.exists_toProgram
  have hle : 0 + p.outline.height ≤ a.size := hat.height_le h
  have hcopied : a.CopiedTo (ofProgram p) a.preorder 0 :=
    hat.copiedTo (laidAt_ofProgram p) (by omega)
  refine ⟨ofProgram p, compact_eq_ofProgram hp, ?_, ?_, isLive_ofProgram, ?_, ?_⟩
  · rw [toProgram_ofProgram, hp]
  · rw [size_ofProgram, h.liveCount_eq hat]
  · intro i x hx
    have hd := (hcopied i x hx).1
    rwa [Nat.zero_add] at hd
  · intro i x hx
    exact hcopied.childrenOf_eq h.nodup_preorder hx

/-- Laying a program out and reading it back gives the program; the nodes are numbered in the order
of a walk, and there are as many as the program has; compacting changes nothing. Whatever is tried
and undone in that arena then, compacting renumbers the live nodes in the order of a walk and drops
the others. -/
theorem compact_run (p : Program) :
    (ofProgram p).toProgram = .ok p ∧
      (ofProgram p).preorder = List.range (ofProgram p).size ∧
      (ofProgram p).size = p.size ∧
      (ofProgram p).compact = .ok (ofProgram p) ∧
      ∀ steps, ∃ b, (History.run ⟨ofProgram p, []⟩ steps).arena.CompactedTo b :=
  ⟨toProgram_ofProgram p, preorder_ofProgram p, size_ofProgram p, compact_ofProgram p,
    fun steps => (History.wellFormed_run p steps).exists_compact⟩

end ShaderShrink.Arena

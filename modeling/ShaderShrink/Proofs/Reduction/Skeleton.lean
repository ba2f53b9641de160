import ShaderShrink.Proofs.Arena.Order
import ShaderShrink.Proofs.Change.Local
import ShaderShrink.Proofs.Reduction.Search

/-!
# What a reduction leaves of a program

A reduction invents nothing. `Program.Trims` says what this means for two programs: the headers of
the declarations that are left are some of those there were, in their order, with those of all entry
points among them, and what is read from top to bottom is, apart from the literals that are put in
the place of expressions, some of what was read before, in its order.

A local edit trims a program (`Change.LocalEdit.trims`), and trimming composes, so it is an
invariant of reductions; `Reducer.reduce_trims` is the result for a whole run.
-/

namespace ShaderShrink

open Arena

/-- What a declaration says apart from its body or its initializer. -/
inductive DeclHeader where
  | global (ty name : String) (hasInit : Bool)
  | function (returnType name : String) (params : List Param)
  deriving DecidableEq, Repr

/-- The header of a declaration. -/
def Decl.header : Decl → DeclHeader
  | .global ty name init => .global ty name init.isSome
  | .function returnType name params _ => .function returnType name params

/-- Whether the header is that of a function of the given name. -/
def DeclHeader.isFunction (entry : String) : DeclHeader → Bool
  | .global .. => false
  | .function _ name _ => name = entry

/-- The headers of the declarations of a program. -/
def Program.headers (p : Program) : List DeclHeader := p.declarations.map Decl.header

/-- The header that is read off the outline of a declaration. -/
def Outline.header? : Outline → Option DeclHeader
  | .node (.global ty name) parts => some (.global ty name !parts.isEmpty)
  | .node (.function returnType name params) _ => some (.function returnType name params)
  | _ => none

/-- The payloads of the live nodes, those of a node before those of its children. -/
def Arena.payloads (a : Arena) : List Payload := a.preorder.filterMap a.data?

/-- Whether a payload is one of the literals that are put in the place of expressions. -/
def Payload.isStandIn (data : Payload) : Bool :=
  data ∈ LiteralValue.standIns.map LiteralValue.toPayload

/-- The program `q` is what is left of the program `p`. -/
structure Program.Trims (entry : String) (p q : Program) : Prop where
  headers : q.headers.Sublist p.headers
  entries : q.headers.filter (·.isFunction entry) = p.headers.filter (·.isFunction entry)
  payloads : (q.outline.payloads.filter (!·.isStandIn)).Sublist p.outline.payloads

section
variable {entry : String} {p q r : Program} {a : Arena}

/-- A program trims itself. -/
theorem Program.Trims.refl : p.Trims entry p := ⟨.refl _, rfl, List.filter_sublist⟩

/-- The literals are left out once more on the way, which changes nothing. -/
theorem Program.Trims.trans (hpq : p.Trims entry q) (hqr : q.Trims entry r) : p.Trims entry r where
  headers := hqr.headers.trans hpq.headers
  entries := hqr.entries.trans hpq.entries
  payloads := by
    have h := hqr.payloads.filter (!·.isStandIn)
    rw [List.filter_filter] at h
    simp only [Bool.and_self] at h
    exact h.trans hpq.payloads

/-! ## Reading outlines -/

namespace Outline

mutual

/-- A walk with enough levels reads the payloads of the outline. -/
theorem At.filterMap_walk : ∀ {t : Outline} {id n : Nat}, t.At a id → t.height ≤ n →
    (a.walk n id).filterMap a.data? = t.payloads
  | .node _ _, _, 0, _, hn => absurd hn (Nat.not_le.2 (height_pos _))
  | .node _ parts, id, n + 1, h, hn => by
    rw [Arena.walk, List.filterMap_cons, h.1, payloads,
      AllAt.filterMap_walk h.2 (Nat.le_of_succ_le_succ hn)]

/-- A walk over outlines side by side meets their payloads. -/
theorem AllAt.filterMap_walk : ∀ {ts : List Outline} {ids : List NodeId} {n : Nat},
    AllAt a ts ids → heightAll ts ≤ n →
    (ids.flatMap (a.walk n)).filterMap a.data? = payloadsAll ts
  | [], _, _, h, _ => by rw [h]; rfl
  | t :: rest, _, n, ⟨id, more, he, ht, hrest⟩, hn => by
    obtain ⟨h₁, h₂⟩ := Nat.max_le.1 hn
    rw [he, List.flatMap_cons, List.filterMap_append, payloadsAll, At.filterMap_walk ht h₁,
      AllAt.filterMap_walk hrest h₂]

end

end Outline

/-- The nodes of a program have the payloads that its outline has, in the same order. -/
theorem Arena.payloads_ofProgram (p : Program) : (ofProgram p).payloads = p.outline.payloads := by
  have h := outline_at_ofProgram p
  have hle : 0 + p.outline.height ≤ (ofProgram p).size := h.height_le (wellFormed_ofProgram p)
  exact h.filterMap_walk (by omega)

/-- The header of a declaration is found in its outline. -/
theorem Decl.header?_outline (d : Decl) : d.outline.header? = some d.header := by
  cases d with
  | global ty name init => cases init <;> rfl
  | function returnType name params body => rfl

/-- The headers of a program are found in its outline. -/
theorem Program.headers_eq (p : Program) :
    p.headers = p.outline.parts.filterMap Outline.header? := by
  rw [headers, outline, Outline.parts, List.filterMap_map]
  simp only [Function.comp_def, Decl.header?_outline, List.filterMap_eq_map']

end

/-! ## Trimming by a local edit -/

namespace Change

section
variable {config : FinderConfig} {p q : Program} {c : Change} {path : List Nat} {i : Nat}
  {above old : Outline} {stays : List Outline}

/-- Stand-ins apart, what stays of a part is read in the part. -/
theorem Leaves.payloads_sublist {position : List Nat} (h : c.Leaves p position above old stays) :
    ((Outline.payloadsAll stays).filter (!·.isStandIn)).Sublist old.payloads := by
  cases h with
  | operand _ _ hpart _ | inner _ _ hpart _ =>
    simp only [Outline.payloadsAll, List.append_nil]
    exact List.filter_sublist.trans (Outline.payloads_sublist_of_part hpart)
  | @literal _ _ value _ _ hvalue =>
    have hstandIn : value.toPayload.isStandIn = true :=
      decide_eq_true (List.mem_map_of_mem hvalue)
    simp [Outline.payloadsAll, Outline.payloads, hstandIn]
  | statement | declaration => exact List.nil_sublist _

/-- Where something stays, or the part is in a list, the header of the node above is as before. -/
theorem Leaves.isEmpty_eq {position : List Nat} (h : c.Leaves p position above old stays)
    (hold : above.parts[i]? = some old) (hcat : above.data.category = .declaration) :
    (above.parts.take i ++ stays ++ above.parts.drop (i + 1)).isEmpty = above.parts.isEmpty := by
  have hparts : above.parts.isEmpty = false := by
    rw [List.isEmpty_eq_false_iff]
    exact List.ne_nil_of_mem (List.mem_of_getElem? hold)
  rw [hparts]
  cases h with
  | operand | literal | inner => simp
  | statement _ habove | declaration _ habove =>
    rw [habove] at hcat
    cases hcat

/-- An edit in a declaration leaves its header alone: above a part that goes without anything in
its place there is a list, which a declaration is not. -/
theorem Leaves.header?_splice {position : List Nat} {t : Outline}
    (h : c.Leaves p position above old stays) (habove : t.part? path = some above)
    (hold : above.parts[i]? = some old) (hcat : t.data.category = .declaration) :
    (t.splice stays i path).header? = t.header? := by
  obtain ⟨data, parts⟩ := t
  cases path with
  | nil =>
    cases habove
    have hempty := h.isEmpty_eq hold hcat
    cases data with
    | global ty name =>
      simp only [Outline.splice, Outline.header?]
      rw [show (parts.take i ++ stays ++ parts.drop (i + 1)).isEmpty = parts.isEmpty from hempty]
    | function returnType name params => rfl
    | _ => cases hcat
  | cons k path =>
    cases data with
    | global ty name => cases parts <;> cases k <;> rfl
    | function returnType name params => rfl
    | _ => cases hcat

/-- Right below the unit only removals of declarations are made. -/
theorem Leaves.eq_nil {position : List Nat} (h : c.Leaves p position above old stays)
    (hcat : old.data.category = .declaration) :
    stays = [] ∧ ∃ unit declaration, c = .removeDeclaration unit declaration := by
  cases h with
  | operand hold | literal hold | inner hold | statement hold =>
    rw [hcat] at hold
    cases hold
  | declaration => exact ⟨rfl, _, _, rfl⟩

/-- A local edit leaves the headers in their order, and those of entry points untouched. -/
theorem LocalEdit.headers (e : c.LocalEdit p q path i above old stays)
    (hoffered : c.Offered config (ofProgram p)) :
    q.headers.Sublist p.headers ∧
      q.headers.filter (·.isFunction config.entryPoint) =
        p.headers.filter (·.isFunction config.entryPoint) := by
  have hcat {k : Nat} {t : Outline} (ht : p.outline.parts[k]? = some t) :
      t.data.category = .declaration := by
    obtain ⟨d, -, rfl⟩ := List.mem_map.1 (List.mem_of_getElem? ht)
    exact of_decide_eq_true d.accepts_outline
  have hold := e.part_eq
  have habove := e.above_eq
  rw [q.headers_eq, p.headers_eq, e.outline_eq]
  cases path with
  | nil =>
    cases habove
    obtain ⟨rfl, unit, declaration, rfl⟩ := e.leaves.eq_nil (hcat hold)
    have hparts := Outline.eq_take_append_drop hold
    have hspared : ∀ header, old.header? = some header →
        header.isFunction config.entryPoint = false := by
      intro header hheader
      obtain ⟨data, parts⟩ := old
      cases data with
      | function returnType name params =>
        cases hheader
        exact decide_eq_false
          (hoffered.spared _ _ rfl returnType name params e.at_target.data?)
      | global ty name =>
        cases hheader
        rfl
      | _ => cases hheader
    have hafter : (p.outline.splice [] i []).parts =
        p.outline.parts.take i ++ p.outline.parts.drop (i + 1) := by
      rw [Program.outline, Outline.splice, List.append_nil]
      rfl
    rw [hafter]
    refine ⟨?_, ?_⟩
    · rw [← List.eraseIdx_eq_take_drop_succ]
      exact (List.eraseIdx_sublist _ _).filterMap _
    · conv_rhs => rw [hparts]
      simp only [List.filterMap_append, List.filter_append, List.filterMap_cons]
      cases hheader : old.header? with
      | none => rfl
      | some header => rw [List.filter_cons, hspared header hheader]; rfl
  | cons k path =>
    obtain ⟨t, ht, habove⟩ := Outline.part?_cons_eq_some_iff.1 habove
    have hafter : (p.outline.splice stays i (k :: path)).parts =
        p.outline.parts.take k ++ t.splice stays i path :: p.outline.parts.drop (k + 1) :=
      Outline.modify_eq_take_append_drop _ ht
    have hheader := e.leaves.header?_splice habove hold (hcat ht)
    have hsame : (p.outline.splice stays i (k :: path)).parts.filterMap Outline.header? =
        p.outline.parts.filterMap Outline.header? := by
      rw [hafter]
      conv_rhs => rw [Outline.eq_take_append_drop ht]
      simp only [List.filterMap_append, List.filterMap_cons, hheader]
    rw [hsame]
    exact ⟨.refl _, rfl⟩

/-- A change that was found trims the program. -/
theorem LocalEdit.trims (e : c.LocalEdit p q path i above old stays)
    (hoffered : c.Offered config (ofProgram p)) : p.Trims config.entryPoint q where
  headers := (e.headers hoffered).1
  entries := (e.headers hoffered).2
  payloads := by
    obtain ⟨before, behind, hp, hq⟩ := Outline.payloads_splice e.old_eq
    rw [e.outline_eq, hq, hp, List.filter_append, List.filter_append]
    exact (List.filter_sublist.append e.leaves.payloads_sublist).append List.filter_sublist

end

end Change

/-- Candidates are trimmed. -/
theorem FinderConfig.trims_of_mem_candidates {config : FinderConfig} {p q : Program}
    (h : q ∈ config.candidates p) : p.Trims config.entryPoint q := by
  obtain ⟨o, ho, hq⟩ := List.mem_filterMap.1 h
  obtain ⟨edit, after, q', path, i, above, old, stays, happly, -, hread, -, e⟩ :=
    Change.exists_localEdit ho
  rw [Program.change?, happly] at hq
  simp only [hread] at hq
  cases hq
  exact e.trims (Change.offered_of_mem_find ho)

namespace Reducer

variable {σ : Type}

/-- All along, the program trims the one that the reduction started with. -/
theorem invariant_trims (r : Reducer σ) (p : Program) :
    r.Invariant fun q _ => p.Trims r.finder.entryPoint q where
  kept hq hc _ _ := hq.trans (FinderConfig.trims_of_mem_candidates hc)
  rejected hq _ _ := hq

/-- A reduction gives a program that has some of the declaration headers of the program it started
with, in their order, with those of all functions that are named like the entry point among them;
and what is read in it from top to bottom is, apart from the literals that are put in the place of
expressions, some of what is read in that program, in its order. -/
theorem reduce_trims (r : Reducer σ) (p : Program) (s : σ) :
    ∃ outcome q, (r.reduce (ofProgram p) s).1 = .ok outcome ∧
      outcome.arena.toProgram = .ok q ∧
      q.headers.Sublist p.headers ∧
      q.headers.filter (·.isFunction r.finder.entryPoint) =
        p.headers.filter (·.isFunction r.finder.entryPoint) ∧
      (outcome.arena.payloads.filter (!·.isStandIn)).Sublist (ofProgram p).payloads := by
  obtain ⟨outcome, q, t, he, harena, -, -, h⟩ :=
    reduce_spec (s := s) (r.invariant_trims p) (fun _ => .refl) (fun _ _ => .refl)
  have htrims : p.Trims r.finder.entryPoint q := by
    generalize outcome.report.termination = reason at h
    cases h with
    | unasked | dull => exact .refl
    | searched _ hP => exact hP
  refine ⟨outcome, q, by rw [he], by rw [harena, toProgram_ofProgram], htrims.headers,
    htrims.entries, ?_⟩
  rw [harena, payloads_ofProgram, payloads_ofProgram]
  exact htrims.payloads

end Reducer

end ShaderShrink

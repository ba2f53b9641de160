import ShaderShrink.Proofs.Json.Decoding

/-!
# Numbers, maps and labelled values survive their encoding

How natural numbers below a bound, objects whose members have any keys, and values with a label are
read. A value that nests no deeper than texts may is decoded from both of its texts, the compact one
and the pretty one (`Json.Reads.survives`).
-/

namespace ShaderShrink.Json

section
variable {α β : Type} {a : α}

/-! ## Natural numbers -/

/-- A natural number below a bound is read from its integer. -/
theorem reads_natBelow {n bound : Nat} (h : n < bound) : Reads (natBelow bound) (.int n) n := by
  have hbound : (0 : Int) ≤ n ∧ (n : Int) < bound := ⟨Int.natCast_nonneg n, Int.ofNat_lt.2 h⟩
  refine .of_scalar rfl fun source => ?_
  rw [draft, natBelow, if_pos hbound, Int.toNat_natCast]

/-- A natural number that fits a word is read from its integer. -/
theorem reads_nat64 {n : Nat} (h : n < word64) : Reads nat64 (.int n) n := reads_natBelow h

/-- The integer of a natural number that fits a word fits a word. -/
theorem legible_nat {n : Nat} (h : n < word64) : (Json.int n).Legible := h

/-! ## Objects with any keys -/

/-- Decodes a member of an object. -/
def readMember (decode : Decoder α) (source : Source) : Key × Draft → Except Failure (String × α)
  | (key, v) => do
    let key ← key.read
    return (key, ← decode source v)

/-- A member is read as its key with what its value is read as. -/
theorem readMember_draft {decode : Decoder α} {key : String} {v : Json} (h : Reads decode v a)
    (source : Source) :
    readMember decode source (.name key, v.draft) = within (source.Admits v.depth) (key, a) := by
  show (decode source v.draft >>= fun a => .ok (key, a)) = _
  rw [h source]
  exact within_bind_ok rfl

/-- An object is read member by member. -/
theorem reads_entries {decode : Decoder α} (encode : α → Json) (entries : List (String × α))
    (h : ∀ e ∈ entries, Reads decode (encode e.2) e.2) :
    Reads (members decode) (.obj (entries.map fun e => (e.1, encode e.2))) entries := by
  have hentries (source : Source) :
      (draftMembers (entries.map fun e => (e.1, encode e.2))).mapM (readMember decode source) =
        within (source.Admits (depthMembers (entries.map fun e => (e.1, encode e.2))))
          entries := by
    induction entries with
    | nil => exact (within_of_true Source.admits_zero).symm
    | cons e rest ih =>
      obtain ⟨he, hrest⟩ := List.forall_mem_cons.1 h
      rw [List.map_cons, draftMembers, List.mapM_cons, readMember_draft he, ih hrest]
      exact Source.within_bind_max (within_bind_ok rfl)
  intro source
  refine Source.enter_bind fun inner => ?_
  show ((draftMembers _).mapM (readMember decode inner) >>= _) = _
  rw [hentries]
  exact within_bind_ok rfl

/-! ## Labelled values -/

/-- A value whose label stands in front of its content is read by what the label selects. -/
theorem reads_labelled {tagKey contentKey name : String} {decoders : List (String × Decoder α)}
    {decode : Decoder α} {v : Json} (hname : decoders.lookup name = some decode)
    (hkeys : tagKey ≠ contentKey) (h : Reads decode v a) :
    Reads (labelled tagKey contentKey decoders)
      (.obj [(tagKey, .str name), (contentKey, v)]) a := by
  have hchoice (inner : Source) : choice decoders inner (.str name) = .ok decode := by
    rw [choice, named, hname]
    rfl
  intro source
  refine Source.enter_bind fun inner => ?_
  have hdepth : within (inner.Admits (depthMembers [(tagKey, .str name), (contentKey, v)])) a =
      within (inner.Admits v.depth) a := by
    simp [depthMembers, depth]
  simp only [draftMembers, draft, nextOf, Key.read, List.contains_eq_mem, List.mem_cons,
    List.not_mem_nil, or_false, Bool.decide_or, Bool.or_eq_true, decide_eq_true_eq, bind_pure_comp,
    Except.ok_bind, hkeys.symm, or_true, ↓reduceIte, true_or, pure_bind, hchoice, bind_map_left,
    Option.isSome_none, Bool.false_eq_true, h inner, hdepth]
  exact within_bind_ok rfl

/-! ## Texts -/

/-- Both texts of a value, the compact one and the pretty one, are decoded as `a`. -/
def Survives (decode : Decoder α) (v : Json) (a : α) : Prop :=
  Json.decode decode v.compact = .ok a ∧ Json.decode decode v.pretty = .ok a

/-- A value that is read, whose integers fit words and that does not nest too deep, is decoded from
both of its texts. -/
theorem Reads.survives {decode : Decoder α} {v : Json} (h : Reads decode v a) (hv : v.Legible)
    (hdepth : v.depth ≤ nestingLimit) : Survives decode v a := by
  refine ⟨?_, ?_⟩
  · rw [h.decode_written hv (written_compact v), if_pos hdepth]
  · rw [h.decode_written hv (written_pretty v), if_pos hdepth]

/-- Equal compact texts are decoded as equal values. -/
theorem Survives.eq_of_compact {decode : Decoder α} {v w : Json} {b : α} (hv : Survives decode v a)
    (hw : Survives decode w b) (heq : v.compact = w.compact) : a = b :=
  Except.ok.inj (hv.1.symm.trans (heq ▸ hw.1))

/-- Equal pretty texts are decoded as equal values. -/
theorem Survives.eq_of_pretty {decode : Decoder α} {v w : Json} {b : α} (hv : Survives decode v a)
    (hw : Survives decode w b) (heq : v.pretty = w.pretty) : a = b :=
  Except.ok.inj (hv.2.symm.trans (heq ▸ hw.2))

end

end ShaderShrink.Json

import ShaderShrink.Text.WordSet

/-!
# Sets and tallies are what their lists say

A set of texts is made of its members again (`WordSet.ofList_toList`), and a tally of its entries
(`Tally.ofList_entries`). What is put into a set comes in front, since members are put in from the
largest to the smallest; what is put into a tally comes last.
-/

namespace ShaderShrink.Text

/-- A word that comes before all others is put in front of them. -/
theorem insertWord_of_forall_lt {word : String} {ws : List String} (h : ∀ w ∈ ws, word < w) :
    insertWord word ws = word :: ws := by
  cases ws with
  | nil => rfl
  | cons w rest => rw [insertWord, if_pos (h w List.mem_cons_self)]

/-- A set of words that are in order keeps their order. -/
theorem WordSet.toList_ofList {words : List String} (h : words.Pairwise (· < ·)) :
    (ofList words).toList = words := by
  induction words with
  | nil => rfl
  | cons word rest ih =>
    obtain ⟨hword, hrest⟩ := List.pairwise_cons.1 h
    rw [ofList, List.foldr_cons, toList_insert, ← ofList, ih hrest, insertWord_of_forall_lt hword]

/-- A set is made from its words. -/
@[simp] theorem WordSet.ofList_toList (s : WordSet) : ofList s.toList = s :=
  WordSet.ext (toList_ofList s.increasing)

/-- An entry that comes behind all others is put behind them. -/
theorem setEntry_of_forall_lt {word : String} {count : Nat} {es : List (String × Nat)}
    (h : ∀ e ∈ es, e.1 < word) : setEntry word count es = es ++ [(word, count)] := by
  induction es with
  | nil => rfl
  | cons e rest ih =>
    obtain ⟨w, n⟩ := e
    obtain ⟨hw, hrest⟩ := List.forall_mem_cons.1 h
    have hlt : ¬ word < w := fun hlt => String.lt_irrefl w (String.lt_trans hw hlt)
    have hne : word ≠ w := fun heq => String.lt_irrefl w (heq ▸ hw)
    rw [setEntry, if_neg hlt, if_neg hne, ih hrest, List.cons_append]

/-- Entries in order are put one behind the other. -/
theorem Tally.entries_foldl_set {es : List (String × Nat)} {t : Tally}
    (h : ((t.entries ++ es).map Prod.fst).Pairwise (· < ·)) :
    (es.foldl (fun t e => t.set e.1 e.2) t).entries = t.entries ++ es := by
  induction es generalizing t with
  | nil => exact (List.append_nil _).symm
  | cons e rest ih =>
    have hset : (t.set e.1 e.2).entries = t.entries ++ [e] := by
      refine setEntry_of_forall_lt fun d hd => ?_
      rw [List.map_append, List.pairwise_append] at h
      exact h.2.2 d.1 (List.mem_map_of_mem hd) e.1 List.mem_cons_self
    rw [List.foldl_cons, ih, hset, List.append_assoc, List.singleton_append]
    rwa [hset, List.append_assoc, List.singleton_append]

/-- A tally is made from its entries. -/
@[simp] theorem Tally.ofList_entries (t : Tally) : ofList t.entries = t :=
  Tally.ext (entries_foldl_set (t := .empty) t.increasing)

end ShaderShrink.Text

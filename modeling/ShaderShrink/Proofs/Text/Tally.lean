import ShaderShrink.Text.WordSet

/-!
# What a tally counts

Counting one more for a text changes the number of that text only, and the sum of all numbers by
one.
-/

namespace ShaderShrink.Text

variable {word v : String} {count : Nat} {es : List (String × Nat)}

/-- A word that comes before all entries has none. -/
theorem lookup_eq_none_of_lt (h : ∀ e ∈ es, word < e.1) : es.lookup word = none :=
  List.lookup_eq_none_iff.2 fun e he => bne_iff_ne.2 fun heq =>
    String.lt_irrefl e.1 (by simpa only [heq] using h e he)

/-- The number of an entry that is set takes the place of the one it had before. -/
theorem total_setEntry (h : (es.map Prod.fst).Pairwise (· < ·)) :
    (setEntry word count es).foldr (fun e sum => e.2 + sum) 0 + (es.lookup word).getD 0 =
      es.foldr (fun e sum => e.2 + sum) 0 + count := by
  induction es with
  | nil => simp [setEntry]
  | cons e rest ih =>
    obtain ⟨w, n⟩ := e
    obtain ⟨hw, hrest⟩ := List.pairwise_cons.1 h
    rw [setEntry]
    split
    · next hlt =>
      have hnone : ((w, n) :: rest).lookup word = none := by
        refine lookup_eq_none_of_lt fun e he => ?_
        rcases List.mem_cons.1 he with rfl | he
        · exact hlt
        · exact String.lt_trans hlt (hw e.1 (List.mem_map_of_mem he))
      rw [hnone]
      simp only [List.foldr_cons, Option.getD_none]
      omega
    · split
      · next heq =>
        subst heq
        simp only [List.foldr_cons, List.lookup_cons_self, Option.getD_some]
        omega
      · next hne =>
        have := ih hrest
        simp only [List.foldr_cons, List.lookup_cons, beq_eq_false_iff_ne.2 hne]
        omega

/-- The first entry is found under its word, and the others under theirs. -/
theorem lookup_cons_eq_ite (w : String) (n : Nat) :
    ((w, n) :: es).lookup v = if v = w then some n else es.lookup v := by
  by_cases h : v = w
  · rw [h, List.lookup_cons_self, if_pos rfl]
  · rw [List.lookup_cons, beq_eq_false_iff_ne.2 h, if_neg h]

/-- An entry that was set is found under its word, and the others are as before. -/
theorem lookup_setEntry :
    (setEntry word count es).lookup v = if v = word then some count else es.lookup v := by
  induction es with
  | nil => rw [setEntry, lookup_cons_eq_ite]
  | cons e rest ih => grind [setEntry, lookup_cons_eq_ite]

namespace Tally

variable {t : Tally}

/-- A word is counted once more, and the others are counted as before. -/
theorem get?_bump :
    (t.bump word).get? v = if v = word then some ((t.get? word).getD 0 + 1) else t.get? v :=
  lookup_setEntry

/-- Counting a word adds one to the total. -/
theorem total_bump : (t.bump word).total = t.total + 1 := by
  have h : (t.bump word).total + (t.get? word).getD 0 = t.total + ((t.get? word).getD 0 + 1) :=
    total_setEntry t.increasing
  omega

end Tally

end ShaderShrink.Text

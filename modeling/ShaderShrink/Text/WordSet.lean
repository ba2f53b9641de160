/-!
# Sets and tallies of texts

A set of texts is the strictly increasing list of its members, and a tally, which counts something
per text, is a list of entries with strictly increasing keys. The order is the order of code points,
so two sets with the same members are equal and are written down in the same way.
-/

namespace ShaderShrink.Text

/-- Puts `word` into an increasing list, unless it is already there. -/
def insertWord (word : String) : List String → List String
  | [] => [word]
  | w :: rest =>
    if word < w then word :: w :: rest
    else if word = w then w :: rest
    else w :: insertWord word rest

/-- Inserting a word adds it and nothing else. -/
theorem mem_insertWord {word w : String} {ws : List String} :
    w ∈ insertWord word ws ↔ w = word ∨ w ∈ ws := by
  induction ws with
  | nil => simp [insertWord]
  | cons v rest ih => grind [insertWord]

/-- Of two different words the one that is not smaller is larger. -/
theorem lt_of_not_lt_of_ne {a b : String} (h : ¬ a < b) (hne : a ≠ b) : b < a := by
  rcases Std.lt_trichotomy a b with h' | h' | h'
  · exact absurd h' h
  · exact absurd h' hne
  · exact h'

/-- Inserting a word keeps the order. -/
theorem insertWord_increasing (word : String) {ws : List String} (h : ws.Pairwise (· < ·)) :
    (insertWord word ws).Pairwise (· < ·) := by
  induction ws with
  | nil => simp [insertWord]
  | cons v rest ih =>
    obtain ⟨hv, hrest⟩ := List.pairwise_cons.1 h
    rw [insertWord]
    split
    · next hlt =>
      refine List.pairwise_cons.2 ⟨fun w hw => ?_, h⟩
      rcases List.mem_cons.1 hw with rfl | hw
      · exact hlt
      · exact String.lt_trans hlt (hv w hw)
    · next hlt =>
      split
      · exact h
      · next hne =>
        refine List.pairwise_cons.2 ⟨fun w hw => ?_, ih hrest⟩
        rcases mem_insertWord.1 hw with rfl | hw
        · exact lt_of_not_lt_of_ne hlt hne
        · exact hv w hw

/-- A finite set of texts. -/
structure WordSet where
  /-- The members from the smallest to the largest. -/
  toList : List String
  increasing : toList.Pairwise (· < ·)
  deriving DecidableEq

namespace WordSet

/-- Sets with the same words are equal. -/
@[ext] theorem ext {s t : WordSet} (h : s.toList = t.toList) : s = t := by
  cases s; cases t; cases h; rfl

/-- The set without members. -/
def empty : WordSet := ⟨[], .nil⟩

instance : Inhabited WordSet := ⟨empty⟩

/-- Adds a member. -/
def insert (word : String) (s : WordSet) : WordSet :=
  ⟨insertWord word s.toList, insertWord_increasing word s.increasing⟩

/-- The set of the texts in a list, in which texts may repeat. -/
def ofList (words : List String) : WordSet := words.foldr insert empty

@[simp] theorem toList_insert (word : String) (s : WordSet) :
    (s.insert word).toList = insertWord word s.toList := rfl

end WordSet

/-- Sets the count of `word`. -/
def setEntry (word : String) (count : Nat) : List (String × Nat) → List (String × Nat)
  | [] => [(word, count)]
  | (w, n) :: rest =>
    if word < w then (word, count) :: (w, n) :: rest
    else if word = w then (w, count) :: rest
    else (w, n) :: setEntry word count rest

/-- Setting an entry adds its word and no other. -/
theorem fst_mem_setEntry {word w : String} {count : Nat} {es : List (String × Nat)} :
    w ∈ (setEntry word count es).map Prod.fst ↔ w = word ∨ w ∈ es.map Prod.fst := by
  induction es with
  | nil => simp [setEntry]
  | cons e rest ih => grind [setEntry]

/-- Setting an entry keeps the order. -/
theorem setEntry_increasing (word : String) (count : Nat) {es : List (String × Nat)}
    (h : (es.map Prod.fst).Pairwise (· < ·)) :
    ((setEntry word count es).map Prod.fst).Pairwise (· < ·) := by
  induction es with
  | nil => simp [setEntry]
  | cons e rest ih =>
    obtain ⟨v, n⟩ := e
    obtain ⟨hv, hrest⟩ := List.pairwise_cons.1 h
    rw [setEntry]
    split
    · next hlt =>
      refine List.pairwise_cons.2 ⟨fun w hw => ?_, h⟩
      rcases List.mem_cons.1 hw with rfl | hw
      · exact hlt
      · exact String.lt_trans hlt (hv w hw)
    · next hlt =>
      split
      · exact h
      · next hne =>
        refine List.pairwise_cons.2 ⟨fun w hw => ?_, ih hrest⟩
        rcases fst_mem_setEntry.1 hw with rfl | hw
        · exact lt_of_not_lt_of_ne hlt hne
        · exact hv w hw

/-- A number for each of finitely many texts. -/
structure Tally where
  /-- The entries from the smallest key to the largest. -/
  entries : List (String × Nat)
  increasing : (entries.map Prod.fst).Pairwise (· < ·)
  deriving DecidableEq

namespace Tally

/-- Tallies with the same entries are equal. -/
@[ext] theorem ext {s t : Tally} (h : s.entries = t.entries) : s = t := by
  cases s; cases t; cases h; rfl

/-- The tally without entries. -/
def empty : Tally := ⟨[], .nil⟩

instance : Inhabited Tally := ⟨empty⟩

/-- The number noted for `word`, if there is an entry. -/
def get? (t : Tally) (word : String) : Option Nat := t.entries.lookup word

/-- Notes `count` for `word`; an earlier number for it is forgotten. -/
def set (word : String) (count : Nat) (t : Tally) : Tally :=
  ⟨setEntry word count t.entries, setEntry_increasing word count t.increasing⟩

/-- Counts one more for `word`. -/
def bump (word : String) (t : Tally) : Tally := t.set word ((t.get? word).getD 0 + 1)

/-- The tally of a list of entries; of entries with one key the last one holds. -/
def ofList (entries : List (String × Nat)) : Tally :=
  entries.foldl (fun t e => t.set e.1 e.2) empty

/-- The sum of all numbers. -/
def total (t : Tally) : Nat := t.entries.foldr (fun e sum => e.2 + sum) 0

end Tally

end ShaderShrink.Text

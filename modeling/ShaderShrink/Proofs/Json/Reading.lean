import Mathlib.Data.List.DropRight
import ShaderShrink.Proofs.Json.Scalar
import ShaderShrink.Proofs.Json.Written

/-!
# Reading written texts

A text that is one for a value is read as that value, however it is laid out: reading gives the
draft of the value and leaves nothing but white space (`Json.readText_written`). The only condition
is on integers, which have to fit a word (`Json.Legible`), since readers take larger ones for
fractions or refuse them.
-/

namespace ShaderShrink.Json

mutual

/-- All integers in the value fit a word of 64 bits, with or without a sign. -/
def Legible : Json → Prop
  | .int n => n.natAbs < word64
  | .arr items => LegibleItems items
  | .obj members => LegibleMembers members
  | .null | .bool _ | .str _ => True

/-- All integers in the values fit a word. -/
def LegibleItems : List Json → Prop
  | [] => True
  | v :: rest => v.Legible ∧ LegibleItems rest

/-- All integers in the members fit a word. -/
def LegibleMembers : List (String × Json) → Prop
  | [] => True
  | (_, v) :: rest => v.Legible ∧ LegibleMembers rest

end

section
variable {s t text rest : List Char} {c : Char} {v : Json} {fuel : Nat}

/-! ## White space -/

/-- White space in front of a text is skipped. -/
theorem skipSpace_append (ht : Blank t) : skipSpace (t ++ s) = skipSpace s :=
  List.dropWhile_append_of_pos ht

/-- Nothing is skipped in front of a character that is no white space. -/
theorem skipSpace_cons (hc : isSpace c = false) : skipSpace (c :: s) = c :: s := by
  rw [skipSpace, List.dropWhile_cons_of_neg (by simp [hc])]

/-- Behind white space that was skipped there is nothing more to skip. -/
theorem skipSpace_skipSpace (s : List Char) : skipSpace (skipSpace s) = skipSpace s :=
  List.dropWhile_idempotent ..

/-- White space ends a number, so whatever ended it may be moved back. -/
theorem EndsNumber.append_left (h : EndsNumber s) (ht : Blank t) : EndsNumber (t ++ s) := by
  cases t with
  | nil => exact h
  | cons c t =>
    have hc : c = ' ' ∨ c = '\n' ∨ c = '\r' ∨ c = '\t' := by
      simpa [isSpace, or_assoc] using ht c List.mem_cons_self
    rw [List.cons_append, endsNumber_cons]
    rcases hc with rfl | rfl | rfl | rfl <;> decide

/-- A value is read behind white space. -/
theorem readValue_skipSpace (fuel : Nat) (s : List Char) :
    readValue fuel (skipSpace s) = readValue fuel s := by
  cases fuel with
  | zero => rfl
  | succ fuel => rw [readValue, readValue, skipSpace_skipSpace]

/-- The items of an array are read behind white space. -/
theorem readItems_skipSpace (fuel : Nat) (s : List Char) :
    readItems fuel (skipSpace s) = readItems fuel s := by
  cases fuel with
  | zero => rfl
  | succ fuel => rw [readItems, readItems, readValue_skipSpace]

/-- The members of an object are read behind white space. -/
theorem readMembers_skipSpace (fuel : Nat) (s : List Char) :
    readMembers fuel (skipSpace s) = readMembers fuel s := by
  cases fuel with
  | zero => rfl
  | succ fuel => rw [readMembers, readMembers, skipSpace_skipSpace]

/-- What is left of a padded text when the white space in front of it is dropped. -/
theorem Padded.exists_skipSpace (h : Padded (c :: text) s) (hc : isSpace c = false) :
    ∃ after, Blank after ∧ text.length + 1 ≤ s.length ∧
      ∀ rest, skipSpace (s ++ rest) = c :: (text ++ (after ++ rest)) := by
  obtain ⟨before, after, hb, ha, rfl⟩ := h
  refine ⟨after, ha, by simp; omega, fun rest => ?_⟩
  rw [List.append_assoc, skipSpace_append hb]
  simp only [List.cons_append, List.append_assoc]
  exact skipSpace_cons hc

/-! ## Values -/

/-- A value without parts is read as it was written. -/
theorem readValue_of_scalar {d : Draft} (hp : Padded text s)
    (hstart : ∃ c t, text = c :: t ∧ isSpace c = false ∧ c ≠ '[' ∧ c ≠ '\x7b')
    (hread : ∀ rest, EndsNumber rest → readScalar (text ++ rest) = (d, some rest))
    (hrest : EndsNumber rest) (hf : 2 * s.length ≤ fuel) :
    ∃ after, Blank after ∧ readValue fuel (s ++ rest) = (d, some (after ++ rest)) := by
  obtain ⟨c, t, rfl, hc, harr, hobj⟩ := hstart
  obtain ⟨after, ha, hlen, hskip⟩ := hp.exists_skipSpace hc
  obtain ⟨fuel, rfl⟩ : ∃ n, fuel = n + 1 := ⟨fuel - 1, by omega⟩
  refine ⟨after, ha, ?_⟩
  rw [readValue, hskip]
  split
  · next h => exact absurd (List.cons.inj h).1 harr
  · next h => exact absurd (List.cons.inj h).1 hobj
  · rw [← List.cons_append]
    exact hread _ (hrest.append_left ha)

/-- A number starts with neither white space nor a bracket. -/
theorem plain_of_number (hc : c = '-' ∨ c.isDigit = true) :
    isSpace c = false ∧ c ≠ '[' ∧ c ≠ ']' ∧ c ≠ '\x7b' := by
  have other {x : Char} (hx : ¬ (x = '-' ∨ x.isDigit = true)) : c ≠ x := fun h => hx (h ▸ hc)
  refine ⟨?_, other (by decide), other (by decide), other (by decide)⟩
  simp [isSpace, other (x := ' ') (by decide), other (x := '\n') (by decide),
    other (x := '\r') (by decide), other (x := '\t') (by decide)]

/-- A text for a value starts with neither a bracket that ends an array nor the end of the text. -/
theorem Written.exists_start (h : v.Written s) (rest : List Char) :
    ∃ c t, skipSpace (s ++ rest) = c :: t ∧ c ≠ ']' := by
  have start {c : Char} {text : List Char} (hp : Padded (c :: text) s)
      (hc : isSpace c = false ∧ c ≠ ']') : ∃ c t, skipSpace (s ++ rest) = c :: t ∧ c ≠ ']' := by
    obtain ⟨after, -, -, hskip⟩ := hp.exists_skipSpace hc.1
    exact ⟨c, _, hskip rest, hc.2⟩
  cases v with
  | arr items =>
    obtain ⟨inner, -, hp⟩ := h
    exact start hp (by decide)
  | obj members =>
    obtain ⟨inner, -, hp⟩ := h
    exact start hp (by decide)
  | null => exact start (c := 'n') h (by decide)
  | bool b => cases b with
    | false => exact start (c := 'f') h (by decide)
    | true => exact start (c := 't') h (by decide)
  | int n =>
    obtain ⟨c, t, hn, hc⟩ := exists_cons_toString n
    have hp : Padded (toString n).toList s := h
    rw [hn] at hp
    exact start hp ⟨(plain_of_number hc).1, (plain_of_number hc).2.2.1⟩
  | str text =>
    have hp : Padded (quote text).toList s := h
    rw [toList_quote] at hp
    exact start hp (by decide)

/-- An item does not start with the bracket that would end the array. -/
theorem WrittenItems.exists_start {more : List Json} (h : WrittenItems (v :: more) s)
    (rest : List Char) : ∃ c t, skipSpace (s ++ rest) = c :: t ∧ c ≠ ']' := by
  cases more with
  | nil => exact Written.exists_start h rest
  | cons w more =>
    obtain ⟨text, others, hv, -, rfl⟩ := h
    rw [List.append_assoc]
    exact hv.exists_start _

/-- The name of a member stands between quotes. -/
theorem exists_name {key : String} (h : Padded (quote key).toList s) :
    ∃ after, Blank after ∧ ∀ rest, skipSpace (s ++ rest) =
      '"' :: (key.toList.flatMap escape ++ '"' :: (after ++ rest)) := by
  rw [toList_quote] at h
  obtain ⟨after, ha, -, hskip⟩ := h.exists_skipSpace (by decide)
  exact ⟨after, ha, fun rest => by simpa using hskip rest⟩

/-- A member does not start with the brace that would end the object. -/
theorem WrittenMembers.exists_start {key : String} {more : List (String × Json)}
    (h : WrittenMembers ((key, v) :: more) s) (rest : List Char) :
    ∃ c t, skipSpace (s ++ rest) = c :: t ∧ c ≠ '\x7d' := by
  have start {name others : List Char} (hn : Padded (quote key).toList name) :
      ∃ c t, skipSpace (name ++ others) = c :: t ∧ c ≠ '\x7d' := by
    obtain ⟨after, -, hskip⟩ := exists_name hn
    exact ⟨'"', _, hskip _, by decide⟩
  cases more with
  | nil =>
    obtain ⟨name, text, hn, -, rfl⟩ := h
    rw [List.append_assoc]
    exact start hn
  | cons w more =>
    obtain ⟨name, text, others, hn, -, -, rfl⟩ := h
    rw [List.append_assoc]
    exact start hn

/-- An array is read as its items if there are any. -/
theorem readValue_of_items {c : Char} {r u : List Char} (hs : skipSpace s = '[' :: r)
    (hr : skipSpace r = c :: u) (hc : c ≠ ']') : readValue (fuel + 1) s =
      (.arr (readItems fuel r).1 (readItems fuel r).2.1, (readItems fuel r).2.2) := by
  rw [readValue, hs]
  simp only [hr]
  split
  · next h => cases h
  · next h => exact absurd (List.cons.inj h).1 hc
  · rw [← hr, readItems_skipSpace]

/-- An object is read as its members if there are any. -/
theorem readValue_of_members {c : Char} {r u : List Char} (hs : skipSpace s = '\x7b' :: r)
    (hr : skipSpace r = c :: u) (hc : c ≠ '\x7d') : readValue (fuel + 1) s =
      (.obj (readMembers fuel r).1 (readMembers fuel r).2.1, (readMembers fuel r).2.2) := by
  rw [readValue, hs]
  simp only [hr]
  split
  · next h => cases h
  · next h => exact absurd (List.cons.inj h).1 hc
  · rw [← hr, readMembers_skipSpace]

end

mutual

/-- A text for a value is read as its draft, up to white space behind it. -/
theorem readValue_written : ∀ {v : Json} {s rest : List Char} {fuel : Nat}, v.Written s →
    v.Legible → EndsNumber rest → 2 * s.length ≤ fuel →
    ∃ after, Blank after ∧ readValue fuel (s ++ rest) = (v.draft, some (after ++ rest))
  | .null, _, _, _, h, _, hrest, hf =>
    readValue_of_scalar h ⟨'n', _, rfl, by decide⟩ (fun rest _ => readScalar_null rest) hrest hf
  | .bool b, _, _, _, h, _, hrest, hf => by
    refine readValue_of_scalar h ?_ (fun rest _ => readScalar_bool b rest) hrest hf
    cases b with
    | false => exact ⟨'f', _, rfl, by decide⟩
    | true => exact ⟨'t', _, rfl, by decide⟩
  | .int n, _, _, _, h, hl, hrest, hf => by
    refine readValue_of_scalar h ?_ (fun rest => readScalar_toString hl) hrest hf
    obtain ⟨c, t, hn, hc⟩ := exists_cons_toString n
    exact ⟨c, t, hn, (plain_of_number hc).1, (plain_of_number hc).2.1, (plain_of_number hc).2.2.2⟩
  | .str text, _, _, _, h, _, hrest, hf => by
    refine readValue_of_scalar h ?_ (fun rest _ => readScalar_quote text rest) hrest hf
    exact ⟨'"', _, toList_quote text, by decide⟩
  | .arr items, s, rest, fuel, ⟨inner, hi, hp⟩, hl, hrest, hf => by
    obtain ⟨after, ha, hlen, hskip⟩ := hp.exists_skipSpace (by decide)
    rw [List.length_append, List.length_singleton] at hlen
    obtain ⟨fuel, rfl⟩ : ∃ n, fuel = n + 1 := ⟨fuel - 1, by omega⟩
    refine ⟨after, ha, ?_⟩
    have hs := hskip rest
    rw [List.append_assoc, List.singleton_append] at hs
    cases items with
    | nil =>
      rw [readValue, hs]
      simp only [skipSpace_append hi, skipSpace_cons (c := ']') (by decide)]
      rfl
    | cons v more =>
      obtain ⟨c, u, hc, hne⟩ := WrittenItems.exists_start hi (']' :: (after ++ rest))
      have hitems : readItems fuel (inner ++ ']' :: (after ++ rest)) =
          (draftItems (v :: more), none, some (after ++ rest)) :=
        readItems_written (List.cons_ne_nil _ _) hi hl (by omega)
      rw [readValue_of_items hs hc hne, hitems]
      rfl
  | .obj members, s, rest, fuel, ⟨inner, hi, hp⟩, hl, hrest, hf => by
    obtain ⟨after, ha, hlen, hskip⟩ := hp.exists_skipSpace (by decide)
    rw [List.length_append, List.length_singleton] at hlen
    obtain ⟨fuel, rfl⟩ : ∃ n, fuel = n + 1 := ⟨fuel - 1, by omega⟩
    refine ⟨after, ha, ?_⟩
    have hs := hskip rest
    rw [List.append_assoc, List.singleton_append] at hs
    cases members with
    | nil =>
      rw [readValue, hs]
      simp only [skipSpace_append hi, skipSpace_cons (c := '\x7d') (by decide)]
      rfl
    | cons member more =>
      obtain ⟨key, v⟩ := member
      obtain ⟨c, u, hc, hne⟩ := WrittenMembers.exists_start hi ('\x7d' :: (after ++ rest))
      have hmembers : readMembers fuel (inner ++ '\x7d' :: (after ++ rest)) =
          (draftMembers ((key, v) :: more), none, some (after ++ rest)) :=
        readMembers_written (List.cons_ne_nil _ _) hi hl (by omega)
      rw [readValue_of_members hs hc hne, hmembers]
      rfl

/-- A text for values, of which there is one at least, is read as their drafts. -/
theorem readItems_written : ∀ {items : List Json} {s rest : List Char} {fuel : Nat}, items ≠ [] →
    WrittenItems items s → LegibleItems items → 2 * s.length + 1 ≤ fuel →
    readItems fuel (s ++ ']' :: rest) = (draftItems items, none, some rest)
  | [], _, _, _, hne, _, _, _ => absurd rfl hne
  | [v], s, rest, fuel, _, h, hl, hf => by
    obtain ⟨fuel, rfl⟩ : ∃ n, fuel = n + 1 := ⟨fuel - 1, by omega⟩
    have hend : EndsNumber (']' :: rest) := endsNumber_cons.2 (by decide)
    obtain ⟨after, ha, hv⟩ := readValue_written h hl.1 hend (show _ ≤ fuel by omega)
    rw [readItems, hv]
    simp only [skipSpace_append ha, skipSpace_cons (c := ']') (by decide)]
    rfl
  | v :: w :: more, s, rest, fuel, _, ⟨text, others, hv, hm, he⟩, hl, hf => by
    subst he
    rw [List.length_append, List.length_cons] at hf
    obtain ⟨fuel, rfl⟩ : ∃ n, fuel = n + 1 := ⟨fuel - 1, by omega⟩
    have hend : EndsNumber (',' :: (others ++ ']' :: rest)) := endsNumber_cons.2 (by decide)
    obtain ⟨after, ha, hv⟩ := readValue_written hv hl.1 hend (show _ ≤ fuel by omega)
    have hmore : readItems fuel (others ++ ']' :: rest) =
        (draftItems (w :: more), none, some rest) :=
      readItems_written (List.cons_ne_nil _ _) hm hl.2 (by omega)
    rw [List.append_assoc, List.cons_append, readItems, hv]
    simp only [skipSpace_append ha, skipSpace_cons (c := ',') (by decide), hmore]
    rfl

/-- A text for members, of which there is one at least, is read as their drafts. -/
theorem readMembers_written : ∀ {members : List (String × Json)} {s rest : List Char} {fuel : Nat},
    members ≠ [] → WrittenMembers members s → LegibleMembers members → 2 * s.length + 1 ≤ fuel →
    readMembers fuel (s ++ '\x7d' :: rest) = (draftMembers members, none, some rest)
  | [], _, _, _, hne, _, _, _ => absurd rfl hne
  | [(key, v)], s, rest, fuel, _, ⟨name, text, hn, hv, he⟩, hl, hf => by
    subst he
    rw [List.length_append, List.length_cons] at hf
    obtain ⟨fuel, rfl⟩ : ∃ n, fuel = n + 1 := ⟨fuel - 1, by omega⟩
    have hend : EndsNumber ('\x7d' :: rest) := endsNumber_cons.2 (by decide)
    obtain ⟨gap, hgap, hname⟩ := exists_name hn
    obtain ⟨after, ha, hv⟩ := readValue_written hv hl.1 hend (show _ ≤ fuel by omega)
    rw [List.append_assoc, List.cons_append, readMembers, hname]
    simp only [readString_quote, skipSpace_append hgap, skipSpace_cons (c := ':') (by decide), hv,
      skipSpace_append ha, skipSpace_cons (c := '\x7d') (by decide)]
    simp [Chars.key, draftMembers]
  | (key, v) :: w :: more, s, rest, fuel, _, ⟨name, text, others, hn, hv, hm, he⟩, hl, hf => by
    subst he
    simp only [List.length_append, List.length_cons] at hf
    obtain ⟨fuel, rfl⟩ : ∃ n, fuel = n + 1 := ⟨fuel - 1, by omega⟩
    have hend : EndsNumber (',' :: (others ++ '\x7d' :: rest)) := endsNumber_cons.2 (by decide)
    obtain ⟨gap, hgap, hname⟩ := exists_name hn
    obtain ⟨after, ha, hv⟩ := readValue_written hv hl.1 hend (show _ ≤ fuel by omega)
    have hmore : readMembers fuel (others ++ '\x7d' :: rest) =
        (draftMembers (w :: more), none, some rest) :=
      readMembers_written (List.cons_ne_nil _ _) hm hl.2 (by omega)
    simp only [List.append_assoc, List.cons_append]
    rw [readMembers, hname]
    simp only [readString_quote, skipSpace_append hgap, skipSpace_cons (c := ':') (by decide), hv,
      skipSpace_append ha, skipSpace_cons (c := ',') (by decide), hmore]
    simp [Chars.key, draftMembers]

end

/-- A text for a value is read as its draft, and only white space follows. -/
theorem readText_written {v : Json} {text : String} (h : v.Written text.toList)
    (hl : v.Legible) : ∃ after, Blank after ∧ readText text = (v.draft, some after) := by
  have hend : EndsNumber [] := nofun
  have hf : 2 * text.toList.length ≤ 2 * text.length + 1 := by
    rw [String.length_toList]
    omega
  obtain ⟨after, ha, hread⟩ := readValue_written h hl hend hf
  rw [List.append_nil, List.append_nil] at hread
  exact ⟨after, ha, hread⟩

end ShaderShrink.Json

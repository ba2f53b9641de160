import Mathlib.Tactic.Common
import ShaderShrink.Json.Printer
import ShaderShrink.Json.Reader

/-!
# What JSON texts are written for a value

`Json.Written` says that a text is one for a value: white space may stand around each part, and
nothing else is left open. The compact text of a value is such a text (`Json.written_compact`), and
so is the pretty one (`Json.written_pretty`), so what is proved of reading written texts holds of
both.
-/

namespace ShaderShrink.Json

/-- White space and nothing else. -/
def Blank (s : List Char) : Prop := ∀ c ∈ s, isSpace c = true

/-- A text with white space around it. -/
def Padded (text s : List Char) : Prop :=
  ∃ before after, Blank before ∧ Blank after ∧ s = before ++ (text ++ after)

mutual

/-- The text is one for the value. -/
def Written : Json → List Char → Prop
  | .arr items, s => ∃ inner, WrittenItems items inner ∧ Padded ('[' :: (inner ++ [']'])) s
  | .obj members, s =>
    ∃ inner, WrittenMembers members inner ∧ Padded ('\x7b' :: (inner ++ ['\x7d'])) s
  | v, s => Padded (scalar v).toList s

/-- The text is one for the values, with commas between them. -/
def WrittenItems : List Json → List Char → Prop
  | [], s => Blank s
  | [v], s => v.Written s
  | v :: rest, s => ∃ text more, v.Written text ∧ WrittenItems rest more ∧ s = text ++ ',' :: more

/-- The text is one for the members, with commas between them. -/
def WrittenMembers : List (String × Json) → List Char → Prop
  | [], s => Blank s
  | [(key, v)], s =>
    ∃ name text, Padded (quote key).toList name ∧ v.Written text ∧ s = name ++ ':' :: text
  | (key, v) :: rest, s => ∃ name text more, Padded (quote key).toList name ∧ v.Written text ∧
      WrittenMembers rest more ∧ s = name ++ ':' :: (text ++ ',' :: more)

end

section
variable {v : Json} {s t text : List Char} {items : List Json} {members : List (String × Json)}

/-- No characters are white space. -/
theorem blank_nil : Blank [] := nofun

/-- White space behind white space is white space. -/
theorem Blank.append (hs : Blank s) (ht : Blank t) : Blank (s ++ t) :=
  List.forall_mem_append.2 ⟨hs, ht⟩

/-- A line break with its indentation is white space. -/
theorem blank_newline (level : Nat) : Blank (newline level).toList := by
  intro c hc
  rw [newline, String.toList_ofList, List.mem_cons] at hc
  rcases hc with rfl | hc
  · rfl
  · rw [List.eq_of_mem_replicate hc]
    rfl

/-- A text may stand without white space around it. -/
theorem Padded.refl (text : List Char) : Padded text text :=
  ⟨[], [], blank_nil, blank_nil, by simp⟩

/-- More white space may be put in front of a text. -/
theorem Padded.append_left (h : Padded text s) (ht : Blank t) : Padded text (t ++ s) := by
  obtain ⟨before, after, hb, ha, rfl⟩ := h
  exact ⟨t ++ before, after, ht.append hb, ha, by simp⟩

/-- More white space may be put behind a text. -/
theorem Padded.append_right (h : Padded text s) (ht : Blank t) : Padded text (s ++ t) := by
  obtain ⟨before, after, hb, ha, rfl⟩ := h
  exact ⟨before, after ++ t, hb, ha.append ht, by simp⟩

/-- A text for a value is a piece without white space around it, padded. -/
theorem Written.exists_padded (h : v.Written s) :
    ∃ text, Padded text s ∧ ∀ s', Padded text s' → v.Written s' := by
  cases v with
  | arr items =>
    obtain ⟨inner, hi, hp⟩ := h
    exact ⟨_, hp, fun s' hp' => ⟨inner, hi, hp'⟩⟩
  | obj members =>
    obtain ⟨inner, hi, hp⟩ := h
    exact ⟨_, hp, fun s' hp' => ⟨inner, hi, hp'⟩⟩
  | null | bool | int | str => exact ⟨_, h, fun s' hp' => hp'⟩

/-- White space in front of a written value does not matter. -/
theorem Written.append_left (h : v.Written s) (ht : Blank t) : v.Written (t ++ s) := by
  obtain ⟨text, hp, hw⟩ := h.exists_padded
  exact hw _ (hp.append_left ht)

/-- White space behind a written value does not matter. -/
theorem Written.append_right (h : v.Written s) (ht : Blank t) : v.Written (s ++ t) := by
  obtain ⟨text, hp, hw⟩ := h.exists_padded
  exact hw _ (hp.append_right ht)

/-- White space behind written items does not matter. -/
theorem WrittenItems.append_right (h : WrittenItems items s) (ht : Blank t) :
    WrittenItems items (s ++ t) := by
  induction items generalizing s with
  | nil => exact Blank.append h ht
  | cons v rest ih =>
    cases rest with
    | nil => exact Written.append_right h ht
    | cons w rest =>
      obtain ⟨text, more, hv, hm, rfl⟩ := h
      exact ⟨text, more ++ t, hv, ih hm, by simp⟩

/-- White space behind written members does not matter. -/
theorem WrittenMembers.append_right (h : WrittenMembers members s) (ht : Blank t) :
    WrittenMembers members (s ++ t) := by
  induction members generalizing s with
  | nil => exact Blank.append h ht
  | cons member rest ih =>
    obtain ⟨key, v⟩ := member
    cases rest with
    | nil =>
      obtain ⟨name, text, hn, hv, rfl⟩ := h
      exact ⟨name, text ++ t, hn, hv.append_right ht, by simp⟩
    | cons w rest =>
      obtain ⟨name, text, more, hn, hv, hm, rfl⟩ := h
      exact ⟨name, text, more ++ t, hn, hv, ih hm, by simp⟩

end

/-! ## Compact texts -/

mutual

/-- The compact text of a value is one for it. -/
theorem written_compact : ∀ v : Json, v.Written v.compact.toList
  | .null | .bool _ | .int _ | .str _ => .refl _
  | .arr items => ⟨_, writtenItems_compact items, by
    simpa [compact] using Padded.refl ('[' :: ((compactItems items).toList ++ [']']))⟩
  | .obj members => ⟨_, writtenMembers_compact members, by
    simpa [compact] using Padded.refl ('\x7b' :: ((compactMembers members).toList ++ ['\x7d']))⟩

/-- The compact printer writes the items of arrays. -/
theorem writtenItems_compact : ∀ items : List Json,
    WrittenItems items (compactItems items).toList
  | [] => blank_nil
  | [v] => written_compact v
  | v :: w :: rest =>
    ⟨_, _, written_compact v, writtenItems_compact (w :: rest), by simp [compactItems]⟩

/-- The compact printer writes the members of objects. -/
theorem writtenMembers_compact : ∀ members : List (String × Json),
    WrittenMembers members (compactMembers members).toList
  | [] => blank_nil
  | [(_, v)] => ⟨_, _, .refl _, written_compact v, by simp [compactMembers]⟩
  | (_, v) :: w :: rest => ⟨_, _, _, .refl _, written_compact v, writtenMembers_compact (w :: rest),
    by simp [compactMembers]⟩

end

/-! ## Pretty texts -/

mutual

/-- The pretty printer writes values, at every level of indentation. -/
theorem written_prettyAt : ∀ (v : Json) (level : Nat), v.Written (v.prettyAt level).toList
  | .null, _ | .bool _, _ | .int _, _ | .str _, _ => .refl _
  | .arr [], _ => ⟨[], blank_nil, by simpa [prettyAt] using Padded.refl _⟩
  | .obj [], _ => ⟨[], blank_nil, by simpa [prettyAt] using Padded.refl _⟩
  | .arr (v :: rest), level =>
    ⟨_, (writtenItems_pretty (v :: rest) (level + 1)).append_right (blank_newline level), by
      simpa [prettyAt] using Padded.refl _⟩
  | .obj (w :: rest), level =>
    ⟨_, (writtenMembers_pretty (w :: rest) (level + 1)).append_right (blank_newline level), by
      simpa [prettyAt] using Padded.refl _⟩

/-- The pretty printer writes the items of arrays. -/
theorem writtenItems_pretty : ∀ (items : List Json) (level : Nat),
    WrittenItems items (prettyItems level items).toList
  | [], _ => blank_nil
  | [v], level => by
    simpa [prettyItems, WrittenItems] using
      (written_prettyAt v level).append_left (blank_newline level)
  | v :: w :: rest, level =>
    ⟨_, _, (written_prettyAt v level).append_left (blank_newline level),
      writtenItems_pretty (w :: rest) level, by simp [prettyItems]⟩

/-- The pretty printer writes the members of objects. -/
theorem writtenMembers_pretty : ∀ (members : List (String × Json)) (level : Nat),
    WrittenMembers members (prettyMembers level members).toList
  | [], _ => blank_nil
  | [(key, v)], level =>
    ⟨_, _, (Padded.refl (quote key).toList).append_left (blank_newline level),
      (written_prettyAt v level).append_left (t := [' ']) (by simp [Blank, isSpace]), by
      simp [prettyMembers]⟩
  | (key, v) :: w :: rest, level =>
    ⟨_, _, _, (Padded.refl (quote key).toList).append_left (blank_newline level),
      (written_prettyAt v level).append_left (t := [' ']) (by simp [Blank, isSpace]),
      writtenMembers_pretty (w :: rest) level, by simp [prettyMembers]⟩

end

/-- The pretty text of a value is one for it. -/
theorem written_pretty (v : Json) : v.Written v.pretty.toList := written_prettyAt v 0

end ShaderShrink.Json

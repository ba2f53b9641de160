import ShaderShrink.Proofs.Json.Scalar

/-!
# Compact texts are single lines

`Json.compact` writes no white space, and strings are written with escapes in the place of control
characters, so there is no control character in the compact text of a value
(`Json.printable_compact`), whatever characters its strings have. In particular it neither has a
line feed nor ends with a carriage return, and what splits a file into lines leaves it whole.
-/

namespace ShaderShrink.Json

/-- No control character below U+0020 is in the text. -/
def Printable (s : List Char) : Prop := ∀ c ∈ s, 0x20 ≤ c.toNat

section
variable {s t : List Char} {c : Char}

/-- Printable characters behind printable characters are printable. -/
theorem Printable.append (hs : Printable s) (ht : Printable t) : Printable (s ++ t) :=
  List.forall_mem_append.2 ⟨hs, ht⟩

/-- A character from the blank on may stand in front of printable characters. -/
theorem printable_cons (hc : 0x20 ≤ c.toNat) (hs : Printable s) : Printable (c :: s) :=
  List.forall_mem_cons.2 ⟨hc, hs⟩

/-- There is no control character among printable characters. -/
theorem Printable.not_mem (hs : Printable s) (hc : c.toNat < 0x20) : c ∉ s := fun hm =>
  absurd (hs c hm) (Nat.not_le.2 hc)

end

/-! ## Strings and numbers -/

/-- The digits in the escape of a control character are printable. -/
theorem le_toNat_hexDigit : ∀ n < 0x20,
    0x20 ≤ (hexDigit (n / 16)).toNat ∧ 0x20 ≤ (hexDigit (n % 16)).toNat := by
  decide

/-- A character below U+0020 is written as an escape, and the other ones are no control
characters. -/
theorem printable_escape (c : Char) : Printable (escape c) := by
  unfold escape
  split_ifs with _ _ _ _ _ _ _ h
  -- first the escapes of one letter
  iterate 7 · simp [Printable]
  · obtain ⟨hhigh, hlow⟩ := le_toNat_hexDigit c.toNat h
    simp [Printable, hhigh, hlow]
  · simpa [Printable] using h

/-- A quoted string has no control characters, since they are escaped. -/
theorem printable_quote (text : String) : Printable (quote text).toList := by
  rw [toList_quote]
  refine printable_cons (by decide) (.append ?_ (by simp [Printable]))
  intro d hd
  obtain ⟨c, -, hd⟩ := List.mem_flatMap.1 hd
  exact printable_escape c d hd

/-- The digits of a number are printable. -/
theorem printable_toDigits (n : Nat) : Printable (Nat.toDigits 10 n) := by
  intro c hc
  have hdigit : c.isDigit = true := Nat.isDigit_of_mem_toDigits (by omega) (by omega) hc
  rw [Char.isDigit, Bool.and_eq_true, decide_eq_true_iff] at hdigit
  exact Nat.le_trans (by decide) (UInt32.le_iff_toNat_le.1 hdigit.1)

/-- The compact text of a value without parts is printable. -/
theorem printable_scalar (v : Json) : Printable (scalar v).toList := by
  cases v with
  | null | arr | obj => simp [scalar, Printable]
  | bool b => cases b <;> simp [scalar, Printable]
  | int n =>
    rw [scalar, toList_toString]
    cases n with
    | ofNat n => exact printable_toDigits n
    | negSucc n => exact printable_cons (by decide) (printable_toDigits (n + 1))
  | str text => exact printable_quote text

/-! ## Values -/

mutual

/-- There is no control character in the compact text of a value. -/
theorem printable_compact : ∀ v : Json, Printable v.compact.toList
  | .null | .bool _ | .int _ | .str _ => printable_scalar _
  | .arr items => by
    rw [compact, String.toList_append, String.toList_append]
    exact .append (.append (by simp [Printable]) (printable_compactItems items))
      (by simp [Printable])
  | .obj members => by
    rw [compact, String.toList_append, String.toList_append]
    exact .append (.append (by simp [Printable]) (printable_compactMembers members))
      (by simp [Printable])

/-- The compact text of items is printable. -/
theorem printable_compactItems : ∀ items : List Json, Printable (compactItems items).toList
  | [] => by simp [compactItems, Printable]
  | [v] => printable_compact v
  | v :: w :: rest => by
    rw [compactItems, String.toList_append, String.toList_append]
    · exact .append (.append (printable_compact v) (by simp [Printable]))
        (printable_compactItems (w :: rest))
    · simp

/-- The compact text of members is printable. -/
theorem printable_compactMembers : ∀ members : List (String × Json),
    Printable (compactMembers members).toList
  | [] => by simp [compactMembers, Printable]
  | [(key, v)] => by
    rw [compactMembers, String.toList_append, String.toList_append]
    exact .append (.append (printable_quote key) (by simp [Printable])) (printable_compact v)
  | (key, v) :: w :: rest => by
    rw [compactMembers, String.toList_append, String.toList_append, String.toList_append,
      String.toList_append]
    · exact .append (.append (.append (.append (printable_quote key) (by simp [Printable]))
        (printable_compact v)) (by simp [Printable])) (printable_compactMembers (w :: rest))
    · simp

end

end ShaderShrink.Json

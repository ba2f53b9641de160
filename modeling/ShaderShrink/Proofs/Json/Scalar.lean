import Mathlib.Tactic.Common
import ShaderShrink.Json.Printer
import ShaderShrink.Json.Reader

/-!
# Reading values without parts

A string is read as it was written (`Json.readString_quote`), and so is an integer of at most 64
bits, with or without a sign, if no character follows that could belong to the number
(`Json.readNumber_toString`). `Json.readScalar_scalar` puts the two together.
-/

namespace ShaderShrink.Json

/-! ## Strings -/

/-- The two digits of the escape of a control character are read as its number. -/
theorem hexUnit?_hexDigit : ∀ n < 0x20,
    hexUnit? '0' '0' (hexDigit (n / 16)) (hexDigit (n % 16)) = some n := by
  decide

/-- An escape of one letter is read as the character that it stands for. -/
theorem readChars_letter {letter c : Char} (h : unescape? letter = some c) (hu : letter ≠ 'u')
    (chars s : List Char) :
    readChars (.ok chars) ('\\' :: letter :: s) = readChars (.ok (c :: chars)) s := by
  simp [readChars, hu, h, addChar, Except.map]

/-- Each character is read as it was written. -/
theorem readChars_escape (c : Char) (chars s : List Char) :
    readChars (.ok chars) (escape c ++ s) = readChars (.ok (c :: chars)) s := by
  unfold escape
  split_ifs with h h h h h h h h
  · subst h
    exact readChars_letter rfl (by decide) chars s
  · subst h
    exact readChars_letter rfl (by decide) chars s
  · subst h
    exact readChars_letter rfl (by decide) chars s
  · subst h
    exact readChars_letter rfl (by decide) chars s
  · subst h
    exact readChars_letter rfl (by decide) chars s
  · subst h
    exact readChars_letter rfl (by decide) chars s
  · subst h
    exact readChars_letter rfl (by decide) chars s
  · have hhigh : isHighSurrogate c.toNat = false := by simp [isHighSurrogate]; omega
    have hlow : isLowSurrogate c.toNat = false := by simp [isLowSurrogate]; omega
    simp [readChars, hexUnit?_hexDigit c.toNat h, hhigh, hlow, addChar, Except.map]
  · have hc : readChars (.ok chars) (c :: s) = if c.toNat < 0x20 then
        (brokenString (.ok chars) .malformed, none) else readChars (addChar c (.ok chars)) s := by
      rw [readChars.eq_def]
      simp_all
    rw [List.singleton_append, hc, if_neg h]
    rfl

/-- Escaped characters are read back, whatever was read before them. -/
theorem readChars_flatMap_escape (text chars s : List Char) :
    readChars (.ok chars) (text.flatMap escape ++ s) =
      readChars (.ok (text.reverse ++ chars)) s := by
  induction text generalizing chars with
  | nil => rfl
  | cons c rest ih =>
    rw [List.flatMap_cons, List.append_assoc, readChars_escape, ih, List.reverse_cons,
      List.append_assoc, List.singleton_append]

/-- A string is read as it was written. -/
theorem readString_quote (text : String) (rest : List Char) :
    readString (text.toList.flatMap escape ++ '"' :: rest) = (.text text.toList, some rest) := by
  rw [readString, readChars_flatMap_escape, readChars, closedString, List.append_nil,
    List.reverse_reverse]

/-- The characters of a quoted string. -/
theorem toList_quote (text : String) :
    (quote text).toList = '"' :: (text.toList.flatMap escape ++ ['"']) := by
  rw [quote, String.toList_ofList, List.cons_append]

/-! ## Numbers -/

/-- No character at the front of a text could belong to a number in front of the text. -/
def EndsNumber (s : List Char) : Prop :=
  ∀ c ∈ s.head?, c.isDigit = false ∧ c ≠ '.' ∧ c ≠ 'e' ∧ c ≠ 'E'

section
variable {s rest ds : List Char} {c : Char} {n m : Nat}

/-- A text ends a number in front of it if its first character cannot go on with it. -/
theorem endsNumber_cons : EndsNumber (c :: s) ↔
    c.isDigit = false ∧ c ≠ '.' ∧ c ≠ 'e' ∧ c ≠ 'E' := by
  simp [EndsNumber]

/-- Digits are taken up to the end of the number. -/
theorem spanDigits_append (hds : ∀ c ∈ ds, c.isDigit = true) (hrest : EndsNumber rest) :
    spanDigits (ds ++ rest) = (ds, rest) := by
  have htake : rest.takeWhile Char.isDigit = [] ∧ rest.dropWhile Char.isDigit = rest := by
    cases rest with
    | nil => exact ⟨rfl, rfl⟩
    | cons c t => simp [(endsNumber_cons.1 hrest).1]
  rw [spanDigits, List.takeWhile_append_of_pos hds, List.dropWhile_append_of_pos hds, htake.1,
    htake.2, List.append_nil]

/-- Only the digit of zero is `0`. -/
theorem digitChar_ne_zero : ∀ n < 10, 0 < n → Nat.digitChar n ≠ '0' := by decide

/-- The first digit of a number other than zero is not zero. -/
theorem head_toDigits (hn : 0 < n) (h : Nat.toDigits 10 n = c :: s) : c ≠ '0' := by
  induction n using Nat.strongRecOn generalizing c s with
  | ind n ih =>
    by_cases hlt : n < 10
    · rw [Nat.toDigits_of_lt_base hlt] at h
      cases h
      exact digitChar_ne_zero n hlt hn
    · rw [Nat.toDigits_of_base_le (by omega) (Nat.le_of_not_lt hlt)] at h
      obtain ⟨d, t, hd⟩ := List.exists_cons_of_ne_nil (Nat.toDigits_ne_nil (n := n / 10) (b := 10))
      rw [hd] at h
      cases h
      exact ih (n / 10) (by omega) (by omega) hd

/-- More digits do not make a number smaller. -/
theorem le_ofDigitChars (ds : List Char) (init : Nat) : init ≤ Nat.ofDigitChars 10 ds init := by
  induction ds generalizing init with
  | nil => exact Nat.le_refl _
  | cons d rest ih =>
    rw [Nat.ofDigitChars_cons]
    exact Nat.le_trans (by omega) (ih _)

/-- Digits of a number that fits a word are gathered without a rest. -/
theorem gather_eq (h : Nat.ofDigitChars 10 ds n < word64) :
    gather n ds = (Nat.ofDigitChars 10 ds n, 0) := by
  induction ds generalizing n with
  | nil => rfl
  | cons d rest ih =>
    rw [Nat.ofDigitChars_cons, Nat.mul_comm] at h
    rw [gather, if_pos (Nat.lt_of_le_of_lt (le_ofDigitChars rest _) h), ih h,
      Nat.ofDigitChars_cons, Nat.mul_comm]

/-- The digits of a word are not too many to be read. -/
theorem isTooLarge_toDigits (h : n < word64) : isTooLarge (Nat.toDigits 10 n) [] 0 = false := by
  have hvalue : Nat.ofDigitChars 10 (Nat.toDigits 10 n) 0 = n :=
    Nat.ofDigitChars_toDigits (by omega) (by omega)
  rw [isTooLarge, gather_eq (by rwa [hvalue])]
  simp [gather, exceedsDouble]

/-- The digits of a number are read as the whole part of one. -/
theorem readWhole_toDigits (hrest : EndsNumber rest) :
    readWhole (Nat.toDigits 10 n ++ rest) = .ok (Nat.toDigits 10 n, rest) := by
  have hdigits : readDigits (Nat.toDigits 10 n ++ rest) = .ok (Nat.toDigits 10 n, rest) := by
    have hspan : spanDigits (Nat.toDigits 10 n ++ rest) = (Nat.toDigits 10 n, rest) :=
      spanDigits_append (fun _ => Nat.isDigit_of_mem_toDigits (by omega) (by omega)) hrest
    rw [readDigits, hspan]
    split
    · next h => exact absurd (Prod.mk.inj h).1 Nat.toDigits_ne_nil
    · rfl
  rw [readWhole, hdigits]
  split
  · next c t u h =>
    -- a zero with digits behind it is no number's
    have hc := (Prod.mk.inj (Except.ok.inj h)).1
    rcases Nat.eq_zero_or_pos n with rfl | hn
    · simp at hc
    · exact absurd rfl (head_toDigits hn hc)
  · rfl

/-- The digits of a number are read as digits alone. -/
theorem readUnsigned_toDigits (negative : Bool) (hrest : EndsNumber rest) :
    readUnsigned negative (Nat.toDigits 10 n ++ rest) =
      .ok (numeral negative (Nat.toDigits 10 n) none none, rest) := by
  have hfraction : readFraction rest = .ok (none, rest) := by
    unfold readFraction
    split
    · exact absurd rfl (endsNumber_cons.1 hrest).2.1
    · rfl
  have hexponent : readExponent rest = .ok (none, rest) := by
    unfold readExponent
    split
    · exact absurd rfl (endsNumber_cons.1 hrest).2.2.1
    · exact absurd rfl (endsNumber_cons.1 hrest).2.2.2
    · rfl
  rw [readUnsigned, readWhole_toDigits hrest]
  change (readFraction rest >>= _) = _
  rw [hfraction]
  change (readExponent rest >>= _) = _
  rw [hexponent]
  rfl

/-- The digits of a number without a sign are read as it. -/
theorem numeral_toDigits (hn : n < word64) :
    numeral false (Nat.toDigits 10 n) none none = .int n := by
  have hvalue : Nat.ofDigitChars 10 (Nat.toDigits 10 n) 0 = n :=
    Nat.ofDigitChars_toDigits (by omega) (by omega)
  simp [numeral, isTooLarge_toDigits hn, hvalue]

/-- The digits of a number with a minus in front are read as it. -/
theorem numeral_toDigits_succ (hn : n + 1 < word64) :
    numeral true (Nat.toDigits 10 (n + 1)) none none = .int (.negSucc n) := by
  have hvalue : Nat.ofDigitChars 10 (Nat.toDigits 10 (n + 1)) 0 = n + 1 :=
    Nat.ofDigitChars_toDigits (by omega) (by omega)
  simp [numeral, isTooLarge_toDigits hn, hvalue, Int.negSucc_eq]

end

/-- A natural number is written with at least one digit. -/
theorem exists_cons_toDigits (n : Nat) :
    ∃ c t, Nat.toDigits 10 n = c :: t ∧ c.isDigit = true := by
  obtain ⟨c, t, h⟩ := List.exists_cons_of_ne_nil (Nat.toDigits_ne_nil (n := n) (b := 10))
  have hc : c ∈ Nat.toDigits 10 n := by simp [h]
  exact ⟨c, t, h, Nat.isDigit_of_mem_toDigits (by omega) (by omega) hc⟩

/-- The characters of an integer are its digits, behind a minus if it is negative. -/
theorem toList_toString (n : Int) : (toString n).toList =
    match n with
    | .ofNat n => Nat.toDigits 10 n
    | .negSucc n => '-' :: Nat.toDigits 10 (n + 1) := by
  cases n with
  | ofNat n =>
    change (Nat.repr n).toList = _
    rw [Nat.repr, String.toList_ofList]
  | negSucc n =>
    change ("-" ++ Nat.repr (n + 1)).toList = _
    rw [String.toList_append, Nat.repr]
    simp

/-- What is written for an integer starts with a sign or a digit. -/
theorem exists_cons_toString (n : Int) :
    ∃ c t, (toString n).toList = c :: t ∧ (c = '-' ∨ c.isDigit = true) := by
  rw [toList_toString]
  cases n with
  | ofNat n =>
    obtain ⟨c, t, h, hc⟩ := exists_cons_toDigits n
    exact ⟨c, t, h, .inr hc⟩
  | negSucc n => exact ⟨'-', _, rfl, .inl rfl⟩

/-- An integer that fits a word is read as it was written. -/
theorem readNumber_toString {n : Int} {rest : List Char} (hn : n.natAbs < word64)
    (hrest : EndsNumber rest) :
    readNumber ((toString n).toList ++ rest) = .ok (.int n, rest) := by
  rw [toList_toString]
  cases n with
  | ofNat n =>
    obtain ⟨c, t, h, hc⟩ := exists_cons_toDigits n
    have hpositive : readNumber (Nat.toDigits 10 n ++ rest) =
        readUnsigned false (Nat.toDigits 10 n ++ rest) := by
      rw [h, List.cons_append, readNumber]
      rintro u ⟨⟩
      cases hc
    change readNumber (Nat.toDigits 10 n ++ rest) = _
    rw [hpositive, readUnsigned_toDigits false hrest, numeral_toDigits (n := n) hn]
    rfl
  | negSucc n =>
    rw [List.cons_append, readNumber, readUnsigned_toDigits true hrest, numeral_toDigits_succ hn]

/-! ## Values without parts -/

/-- The word for no value is read as it. -/
theorem readScalar_null (rest : List Char) :
    readScalar ("null".toList ++ rest) = (.null, some rest) := by
  simp [readScalar, readWord, wordDraft]

/-- The word for a truth value is read as it. -/
theorem readScalar_bool (b : Bool) (rest : List Char) :
    readScalar ((scalar (.bool b)).toList ++ rest) = (.bool b, some rest) := by
  cases b <;> simp [scalar, readScalar, readWord, wordDraft]

/-- A quoted string is read as the string. -/
theorem readScalar_quote (text : String) (rest : List Char) :
    readScalar ((quote text).toList ++ rest) = (.str text, some rest) := by
  rw [toList_quote, List.cons_append, List.append_assoc, List.singleton_append, readScalar,
    readString_quote]
  simp [Chars.draft]

/-- An integer that fits a word is read back if the text behind it ends it. -/
theorem readScalar_toString {n : Int} {rest : List Char} (hn : n.natAbs < word64)
    (hrest : EndsNumber rest) :
    readScalar ((toString n).toList ++ rest) = (.int n, some rest) := by
  have hread := readNumber_toString hn hrest
  obtain ⟨c, t, h, hc⟩ := exists_cons_toString n
  rw [h, List.cons_append] at hread ⊢
  have hnumber : readScalar (c :: (t ++ rest)) = numberDraft (readNumber (c :: (t ++ rest))) := by
    rw [readScalar.eq_def]
    split
    · next heq => cases heq; simp at hc
    · next heq => cases heq; simp at hc
    · next heq => cases heq; simp at hc
    · next heq => cases heq; simp at hc
    · simp [hc]
  rw [hnumber, hread]
  rfl

end ShaderShrink.Json

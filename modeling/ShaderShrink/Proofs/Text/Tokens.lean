import Mathlib.Data.List.Basic

/-!
# Tokens of program texts

`Token.lex` cuts a text in the shading language into tokens: names, numbers and signs, with white
space dropped. A name or a number goes on as far as it can, and two signs that make an operator are
one token, so that `--` is not read as two minus signs.

`Token.Lexes` says that a text gives certain tokens wherever what follows does not go on with its
last word.
-/

namespace ShaderShrink

/-- A piece of program text: a name or a number, or a sign. -/
inductive Token where
  | word (text : List Char)
  | sign (text : List Char)
  deriving DecidableEq, Repr

namespace Token

/-- Whether names start with the character. -/
def isNameStart (c : Char) : Bool := c.isAlpha || c = '_'

/-- Whether names go on with the character. -/
def isNameChar (c : Char) : Bool := c.isAlphanum || c = '_'

/-- Whether a number starts with the character, which is in front of `rest`: it is a digit, or a
point in front of one. -/
def startsNumber (c : Char) (rest : List Char) : Bool :=
  c.isDigit || c = '.' && rest.head?.any Char.isDigit

/-- Whether a word goes on with the character `c` behind the character `last`. Only in numbers there
are points, and signs behind the letter of an exponent. -/
def goesOn (number : Bool) (last c : Char) : Bool :=
  isNameChar c || number && (c = '.' || (last = 'e' || last = 'E') && (c = '+' || c = '-'))

/-- What is left of a word behind the character `last`, and the text behind the word. -/
def takeWord (number : Bool) (last : Char) : List Char → List Char × List Char
  | [] => ([], [])
  | c :: rest =>
    if goesOn number last c then (c :: (takeWord number c rest).1, (takeWord number c rest).2)
    else ([], c :: rest)

/-- The operators of two signs. -/
def pairs : List (List Char) :=
  [['+', '+'], ['-', '-'], ['<', '='], ['>', '='], ['=', '='], ['!', '='], ['&', '&'], ['|', '|'],
    ['^', '^'], ['<', '<'], ['>', '>'], ['+', '='], ['-', '='], ['*', '='], ['/', '='], ['%', '='],
    ['&', '='], ['|', '='], ['^', '=']]

/-- The sign that starts with the character `c`, and the text behind it. -/
def takeSign (c : Char) : List Char → Token × List Char
  | [] => (.sign [c], [])
  | d :: rest => if [c, d] ∈ pairs then (.sign [c, d], rest) else (.sign [c], d :: rest)

/-- The token that starts with the character `c`, and the text behind it. -/
def take (c : Char) (rest : List Char) : Token × List Char :=
  if isNameStart c || startsNumber c rest then
    (.word (c :: (takeWord (!isNameStart c) c rest).1), (takeWord (!isNameStart c) c rest).2)
  else takeSign c rest

/-- What is behind a word is no longer than the text. -/
theorem length_takeWord_le (number : Bool) (last : Char) (s : List Char) :
    (takeWord number last s).2.length ≤ s.length := by
  induction s generalizing last with
  | nil => exact Nat.le_refl _
  | cons c rest ih =>
    rw [takeWord]
    split
    · exact Nat.le_succ_of_le (ih c)
    · exact Nat.le_refl _

/-- What is behind a token is no longer than the text behind its first character. -/
theorem length_take_le (c : Char) (rest : List Char) : (take c rest).2.length ≤ rest.length := by
  unfold take
  split
  · exact length_takeWord_le ..
  · unfold takeSign
    split
    · exact Nat.le_refl _
    · split
      · exact Nat.le_succ _
      · exact Nat.le_refl _

/-- The tokens of a text. -/
def lex : List Char → List Token
  | [] => []
  | c :: rest =>
    if c.isWhitespace then lex rest else (take c rest).1 :: lex (take c rest).2
termination_by s => s.length
decreasing_by
  · exact Nat.lt_succ_self _
  · exact Nat.lt_succ_of_le (length_take_le c rest)

/-! ## Words -/

/-- Whether a text is a name. -/
def isName : List Char → Bool
  | [] => false
  | c :: rest => isNameStart c && rest.all isNameChar

/-- Whether a text is a number, which goes on as far as numbers do. -/
def isNumber : List Char → Bool
  | [] => false
  | c :: rest => startsNumber c rest && (takeWord true c rest).2.isEmpty

/-- Whether a text is a name or a number. -/
def isWord (s : List Char) : Bool := isName s || isNumber s

/-- Whether a text is a number, perhaps with a minus sign in front of it. -/
def isNumeral : List Char → Bool
  | '-' :: s => isNumber s
  | s => isNumber s

/-- The tokens of a number, perhaps with a minus sign in front of it. -/
def numeral : List Char → List Token
  | '-' :: s => [.sign ['-'], .word s]
  | s => [.word s]

/-- Whether the last word of a text does not go on with what follows. -/
def isApart : List Char → Bool
  | [] => true
  | c :: _ => !(isNameChar c || c = '.' || c = '+' || c = '-')

section
variable {number : Bool} {last c : Char} {s rest : List Char}

/-- No word goes on with a character that keeps apart. -/
theorem goesOn_of_isApart (h : isApart (c :: s) = true) : goesOn number last c = false := by
  simp_all [isApart, goesOn]

/-- A word is taken up to its end wherever the text behind it keeps apart. -/
theorem takeWord_append (hs : (takeWord number last s).2 = []) (hrest : isApart rest = true) :
    takeWord number last (s ++ rest) = (s, rest) := by
  induction s generalizing last with
  | nil =>
    cases rest with
    | nil => rfl
    | cons c rest => rw [List.nil_append, takeWord, goesOn_of_isApart hrest]; rfl
  | cons c s ih =>
    rw [takeWord] at hs
    rw [List.cons_append, takeWord]
    split
    · next hc =>
      rw [if_pos hc] at hs
      rw [ih hs]
    · next hc =>
      rw [if_neg hc] at hs
      cases hs

/-- Characters of names, and points in numbers, are taken whatever is in front of them. -/
theorem takeWord_all (h : ∀ c ∈ s, isNameChar c = true ∨ number = true ∧ c = '.') :
    (takeWord number last s).2 = [] := by
  induction s generalizing last with
  | nil => rfl
  | cons c s ih =>
    obtain ⟨hc, hs⟩ := List.forall_mem_cons.1 h
    have hon : goesOn number last c = true := by
      rcases hc with hc | ⟨hnumber, rfl⟩
      · simp [goesOn, hc]
      · simp [goesOn, hnumber]
    rw [takeWord, if_pos hon]
    exact ih hs

/-- No name starts as a number does. -/
theorem not_isNameStart (h : startsNumber c s = true) : isNameStart c = false := by
  rcases Bool.or_eq_true_iff.1 h with h | h
  · have hle : c.val ≤ 57 := of_decide_eq_true (Bool.and_eq_true_iff.1 h).2
    have hupper : c.isUpper = false :=
      decide_eq_false fun hc => absurd (UInt32.le_trans hc.1 hle) (by decide)
    have hlower : c.isLower = false := Bool.and_eq_false_imp.2 fun hc =>
      absurd (UInt32.le_trans (of_decide_eq_true hc) hle) (by decide)
    have halpha : c.isAlpha = false := Bool.or_eq_false_iff.2 ⟨hupper, hlower⟩
    have hline : c ≠ '_' := by
      rintro rfl
      cases h
    simp [isNameStart, halpha, hline]
  · obtain rfl : c = '.' := of_decide_eq_true (Bool.and_eq_true_iff.1 h).1
    rfl

/-- The first character of a word is a character of names or a point. -/
theorem isNameChar_of_isWord (h : isWord (c :: s) = true) : isNameChar c = true ∨ c = '.' := by
  rcases Bool.or_eq_true_iff.1 h with h | h
  · have hc := (Bool.and_eq_true_iff.1 h).1
    simp only [isNameStart, Bool.or_eq_true] at hc
    refine .inl ?_
    rcases hc with hc | hc <;> simp [isNameChar, Char.isAlphanum, hc]
  · rcases Bool.or_eq_true_iff.1 (Bool.and_eq_true_iff.1 h).1 with hc | hc
    · exact .inl (by simp [isNameChar, Char.isAlphanum, hc])
    · exact .inr (of_decide_eq_true (Bool.and_eq_true_iff.1 hc).1)

/-- A number starts as numbers do. -/
theorem exists_cons_of_isNumber (h : isNumber s = true) :
    ∃ c t, s = c :: t ∧ startsNumber c t = true := by
  cases s with
  | nil => cases h
  | cons c t => exact ⟨c, t, rfl, (Bool.and_eq_true_iff.1 h).1⟩

/-- A number may have no minus sign in front of it. -/
theorem isNumeral_of_isNumber (h : isNumber s = true) : isNumeral s = true := by
  unfold isNumeral
  split
  · cases h
  · exact h

/-- A number without a minus sign in front of it is one token. -/
theorem numeral_of_isNumber (h : isNumber s = true) : numeral s = [.word s] := by
  unfold numeral
  split
  · cases h
  · rfl

/-- Every number has tokens. -/
theorem numeral_ne_nil (s : List Char) : numeral s ≠ [] := by
  unfold numeral
  split <;> exact List.cons_ne_nil _ _

/-- A number has a minus sign in front of it or not. -/
theorem numeral_cases (h : isNumeral s = true) :
    (isNumber s = true ∧ numeral s = [.word s]) ∨
      ∃ t, s = '-' :: t ∧ isNumber t = true ∧ numeral s = [.sign ['-'], .word t] := by
  unfold isNumeral at h
  split at h
  · next t => exact .inr ⟨t, rfl, h, rfl⟩
  · exact .inl ⟨h, numeral_of_isNumber h⟩

/-- Digits are a number. -/
theorem isNumber_of_digits (hne : s ≠ []) (h : ∀ c ∈ s, c.isDigit = true) : isNumber s = true := by
  obtain ⟨c, t, rfl⟩ := List.exists_cons_of_ne_nil hne
  have ht : (takeWord true c t).2 = [] := takeWord_all fun d hd => .inl <| by
    simp [isNameChar, Char.isAlphanum, h d (List.mem_cons_of_mem c hd)]
  simp [isNumber, startsNumber, h c List.mem_cons_self, ht]

/-- A word starts as words do, and it is taken up to its end. -/
theorem isWord_cons (h : isWord (c :: s) = true) :
    (isNameStart c || startsNumber c s) = true ∧ (takeWord (!isNameStart c) c s).2 = [] := by
  rcases Bool.or_eq_true_iff.1 h with h | h
  · obtain ⟨hc, hs⟩ := Bool.and_eq_true_iff.1 h
    rw [hc, Bool.true_or]
    exact ⟨rfl, takeWord_all fun d hd => .inl (List.all_eq_true.1 hs d hd)⟩
  · obtain ⟨hc, hs⟩ := Bool.and_eq_true_iff.1 h
    rw [not_isNameStart hc, Bool.false_or]
    exact ⟨hc, List.isEmpty_iff.1 hs⟩

/-- Where a word starts, one starts with more text behind it. -/
theorem starts_append (h : (isNameStart c || startsNumber c s) = true) :
    (isNameStart c || startsNumber c (s ++ rest)) = true := by
  rcases Bool.or_eq_true_iff.1 h with h | h
  · rw [h, Bool.true_or]
  · cases s with
    | nil => simp_all [startsNumber]
    | cons d s => exact Bool.or_eq_true_iff.2 (.inr h)

end

/-! ## Texts and their tokens -/

/-- The text gives the tokens wherever what follows does not go on with its last word. -/
def Lexes (text : List Char) (ts : List Token) : Prop :=
  ∀ rest, isApart rest = true → lex (text ++ rest) = ts ++ lex rest

section
variable {c d : Char} {s t rest : List Char} {ts us : List Token}

/-- Blanks leave no tokens behind. -/
theorem lex_blank (h : c.isWhitespace = true) : lex (c :: s) = lex s := by
  rw [lex, if_pos h]

/-- A word is one token. -/
theorem lexes_word (h : isWord s = true) : Lexes s [.word s] := by
  intro rest hrest
  cases s with
  | nil => cases h
  | cons c s =>
    have hblank : c.isWhitespace = false := by
      rw [Bool.eq_false_iff]
      intro hc
      have hblank : c = ' ' ∨ c = '\t' ∨ c = '\r' ∨ c = '\n' := by
        simpa [Char.isWhitespace, or_assoc] using hc
      have hfirst := isNameChar_of_isWord h
      rcases hblank with rfl | rfl | rfl | rfl <;> revert hfirst <;> decide
    obtain ⟨hstart, hword⟩ := isWord_cons h
    rw [List.cons_append, lex, hblank, take, if_pos (starts_append hstart),
      takeWord_append hword hrest]
    rfl

/-- Whether the character is a sign: it is not white space, and no word starts with it. -/
def isSign (c : Char) : Bool := !(c.isWhitespace || isNameStart c || c.isDigit || c = '.')

/-- A sign is neither a blank nor the start of a word. -/
theorem not_word_of_isSign (hc : isSign c = true) :
    c.isWhitespace = false ∧ (isNameStart c || startsNumber c s) = false := by
  simp_all [isSign, startsNumber]

/-- A sign is a token on its own unless it makes an operator with the next one. -/
theorem lex_sign (hc : isSign c = true) (hpair : ∀ d ∈ s.head?, [c, d] ∉ pairs) :
    lex (c :: s) = .sign [c] :: lex s := by
  obtain ⟨hblank, hword⟩ := not_word_of_isSign (s := s) hc
  rw [lex, hblank, take, hword]
  cases s with
  | nil => rfl
  | cons d s => simp [takeSign, hpair d rfl]

/-- Two signs that make an operator are one token. -/
theorem lex_pair (hc : isSign c = true) (hpair : [c, d] ∈ pairs) :
    lex (c :: d :: s) = .sign [c, d] :: lex s := by
  obtain ⟨hblank, hword⟩ := not_word_of_isSign (s := d :: s) hc
  rw [lex, hblank, take, hword]
  simp [takeSign, hpair]

/-- Whether the character is a sign that makes no operator with the one behind it. -/
def isMark (c : Char) : Bool := isSign c && pairs.all fun pair => pair.head? != some c

/-- A mark is a token on its own. -/
theorem lex_mark (hc : isMark c = true) : lex (c :: s) = .sign [c] :: lex s := by
  obtain ⟨hsign, hpairs⟩ := Bool.and_eq_true_iff.1 hc
  refine lex_sign hsign fun d _ hpair => ?_
  have h := List.all_eq_true.1 hpairs _ hpair
  simp at h

/-- Between parentheses. -/
theorem Lexes.parenthesized (h : Lexes s ts) :
    Lexes ('(' :: (s ++ [')'])) (.sign ['('] :: (ts ++ [.sign [')']])) := by
  intro rest _
  rw [List.cons_append, lex_mark (by decide), List.append_assoc, h _ rfl, List.singleton_append,
    lex_mark (by decide), List.cons_append, List.append_assoc, List.singleton_append]

/-- With an operator between blanks in the middle. -/
theorem Lexes.between (hs : Lexes s ts) (op : List Char)
    (hop : ∀ s, lex (op ++ ' ' :: s) = .sign op :: lex (' ' :: s)) (ht : Lexes t us) :
    Lexes (s ++ ' ' :: (op ++ ' ' :: t)) (ts ++ .sign op :: us) := by
  intro rest hrest
  have hspace : (' ').isWhitespace = true := rfl
  simp only [List.append_assoc, List.cons_append]
  rw [hs _ rfl, lex_blank hspace, hop, lex_blank hspace, ht _ hrest]

/-- With a comma and a blank in the middle. -/
theorem Lexes.comma (hs : Lexes s ts) (ht : Lexes t us) :
    Lexes (s ++ ',' :: ' ' :: t) (ts ++ .sign [','] :: us) := by
  intro rest hrest
  simp only [List.append_assoc, List.cons_append]
  rw [hs _ rfl, lex_mark (by decide), lex_blank rfl, ht _ hrest]

/-- With a semicolon behind it. -/
theorem Lexes.semicolon (h : Lexes s ts) : Lexes (s ++ [';']) (ts ++ [.sign [';']]) := by
  intro rest _
  rw [List.append_assoc, h _ rfl, List.singleton_append, lex_mark (by decide), List.append_assoc]
  rfl

/-- With a blank in the middle. -/
theorem Lexes.blank (hs : Lexes s ts) (ht : Lexes t us) : Lexes (s ++ ' ' :: t) (ts ++ us) := by
  intro rest hrest
  rw [List.append_assoc, List.cons_append, hs _ rfl, lex_blank rfl, ht _ hrest, List.append_assoc]

/-- Only the signs of operators are the second ones of operators. -/
theorem not_mem_pairs (hd : isNameChar d = true ∨ d = '.') : [c, d] ∉ pairs := by
  intro hmem
  have hsigns : (pairs.all fun pair => pair.all fun x => !(isNameChar x || x = '.')) = true := by
    decide
  have hsign := List.all_eq_true.1 (List.all_eq_true.1 hsigns _ hmem) d (by simp)
  rcases hd with hd | rfl
  · simp [hd] at hsign
  · cases hsign

/-- With a sign in front that makes no operator with the first one. -/
theorem Lexes.sign (hc : isSign c = true) (hpair : [c, d] ∉ pairs) (h : Lexes (d :: s) ts) :
    Lexes (c :: d :: s) (.sign [c] :: ts) := by
  intro rest hrest
  rw [List.cons_append, lex_sign hc, h _ hrest, List.cons_append]
  rintro x hx
  cases hx
  exact hpair

/-- The tokens of a number are those that it gives. -/
theorem lexes_numeral (h : isNumeral s = true) : Lexes s (numeral s) := by
  rcases numeral_cases h with ⟨hs, he⟩ | ⟨t, rfl, ht, he⟩
  · rw [he]
    exact lexes_word (Bool.or_eq_true_iff.2 (.inr hs))
  · rw [he]
    have hword : isWord t = true := Bool.or_eq_true_iff.2 (.inr ht)
    cases t with
    | nil => cases ht
    | cons d t =>
      exact (lexes_word hword).sign (by decide) (not_mem_pairs (isNameChar_of_isWord hword))

/-! ## Minus signs -/

/-- Two minus signs are next to each other. -/
def DoubleMinus (s : List Char) : Prop := ['-', '-'] <:+: s

instance : Decidable (DoubleMinus s) := inferInstanceAs (Decidable (['-', '-'] <:+: s))

/-- An empty text has no two minus signs next to each other. -/
theorem not_doubleMinus_nil : ¬ DoubleMinus [] := by
  simp [DoubleMinus]

/-- A character in front of a text makes two minus signs only if both are minus signs. -/
theorem not_doubleMinus_cons (hs : ¬ DoubleMinus s) (h : c ≠ '-' ∨ s.head? ≠ some '-') :
    ¬ DoubleMinus (c :: s) := by
  rw [DoubleMinus, List.infix_cons_iff, not_or]
  refine ⟨?_, hs⟩
  rintro ⟨t, ht⟩
  obtain ⟨rfl, rfl⟩ := List.cons.inj ht
  rcases h with h | h
  · exact h rfl
  · exact h rfl

/-- Two texts with a sign other than a minus sign in between. -/
theorem not_doubleMinus_append (hs : ¬ DoubleMinus s) (hc : c ≠ '-') (ht : ¬ DoubleMinus t) :
    ¬ DoubleMinus (s ++ c :: t) := by
  induction s with
  | nil => exact not_doubleMinus_cons ht (.inl hc)
  | cons d s ih =>
    have hrest : ¬ DoubleMinus s := fun h => hs (List.infix_cons_iff.2 (.inr h))
    refine not_doubleMinus_cons (ih hrest) ?_
    by_cases hd : d = '-'
    · refine .inr ?_
      cases s with
      | nil => simpa using hc
      | cons d' s =>
        rintro hhead
        obtain rfl : d' = '-' := Option.some.inj hhead
        exact hs ⟨[], s, by rw [hd]; rfl⟩
    · exact .inl hd

/-- In a number, a minus sign stands behind the letter of an exponent. -/
theorem not_doubleMinus_takeWord {number : Bool} {last : Char}
    (h : (takeWord number last s).2 = []) :
    ¬ DoubleMinus s ∧ (s.head? = some '-' → last ≠ '-') := by
  induction s generalizing last with
  | nil => exact ⟨not_doubleMinus_nil, nofun⟩
  | cons c s ih =>
    rw [takeWord] at h
    split at h
    · next hc =>
      obtain ⟨hs, hlast⟩ := ih h
      constructor
      · refine not_doubleMinus_cons hs ?_
        by_cases hminus : s.head? = some '-'
        · exact .inl (hlast hminus)
        · exact .inr hminus
      · rintro hhead rfl
        obtain rfl : c = '-' := Option.some.inj hhead
        cases number <;> exact absurd hc (by decide)
    · cases h

/-- A word has no two minus signs next to each other, and does not start with one. -/
theorem not_doubleMinus_word (h : isWord s = true) : ¬ DoubleMinus s ∧ s.head? ≠ some '-' := by
  cases s with
  | nil => cases h
  | cons c s =>
    have hc : c ≠ '-' := by
      rintro rfl
      rcases isNameChar_of_isWord h with hc | hc <;> cases hc
    obtain ⟨hs, -⟩ := not_doubleMinus_takeWord (isWord_cons h).2
    exact ⟨not_doubleMinus_cons hs (.inl hc), fun hhead => hc (Option.some.inj hhead)⟩

/-- A number has no two minus signs next to each other. -/
theorem not_doubleMinus_numeral (h : isNumeral s = true) : ¬ DoubleMinus s := by
  rcases numeral_cases h with ⟨hs, -⟩ | ⟨t, rfl, ht, -⟩
  · exact (not_doubleMinus_word (Bool.or_eq_true_iff.2 (.inr hs))).1
  · obtain ⟨ht, hhead⟩ := not_doubleMinus_word (Bool.or_eq_true_iff.2 (.inr ht))
    exact not_doubleMinus_cons ht (.inr hhead)

end

/-! ## Reading tokens

A reader gives what it has read with the tokens that are behind it. -/

/-- What is behind a sign, if the sign is there. -/
def skip (c : Char) : List Token → Option (List Token)
  | .sign [d] :: rest => if c = d then some rest else none
  | _ => none

section
variable {α : Type}

/-- What was read, if a sign follows. The sign belongs to it. -/
def upTo (c : Char) (result : Option (α × List Token)) : Option (α × List Token) :=
  result.bind fun (a, rest) => (skip c rest).map fun rest => (a, rest)

/-- What was read from some tokens, if fewer are left. No reader leaves more, but a reader that goes
on behind another one needs to know. -/
def shorter (ts : List Token) (result : Option (α × List Token)) :
    Option (α × {rest : List Token // rest.length < ts.length}) :=
  result.bind fun (a, rest) =>
    if h : rest.length < ts.length then some (a, ⟨rest, h⟩) else none

/-- A reader gives a result for some tokens, and fewer are left. -/
def ReadsFrom (read : List Token → Option (α × List Token)) (ts : List Token) (a : α)
    (rest : List Token) : Prop :=
  read ts = some (a, rest) ∧ rest.length < ts.length

variable {a : α} {ts rest : List Token} {c : Char} {read : List Token → Option (α × List Token)}

/-- A sign that is there can be skipped. -/
theorem skip_sign : skip c (.sign [c] :: rest) = some rest := if_pos rfl

/-- What was read may end with the sign that is asked for. -/
theorem upTo_sign : upTo c (some (a, .sign [c] :: rest)) = some (a, rest) := by
  simp only [upTo, Option.bind_some, skip_sign, Option.map_some]

/-- Reading some tokens leaves fewer of them. -/
theorem length_lt_append (h : ts ≠ []) : rest.length < (ts ++ rest).length := by
  rw [List.length_append]
  exact Nat.lt_add_of_pos_left (List.length_pos_iff.2 h)

/-- A reader that leaves fewer tokens may go on with them. -/
theorem shorter_some (h : rest.length < ts.length) :
    shorter ts (some (a, rest)) = some (a, ⟨rest, h⟩) :=
  dif_pos h

/-- What is read from some tokens leaves fewer of them. -/
theorem ReadsFrom.shorter (h : ReadsFrom read ts a rest) :
    shorter ts (read ts) = some (a, ⟨rest, h.2⟩) :=
  (congrArg (Token.shorter ts) h.1).trans (shorter_some h.2)

/-- What is read up to a sign leaves fewer tokens. -/
theorem ReadsFrom.shorter_upTo (h : ReadsFrom read ts a (.sign [c] :: rest)) :
    Token.shorter ts (upTo c (read ts)) = some (a, ⟨rest, Nat.lt_of_succ_lt h.2⟩) := by
  have hread : upTo c (read ts) = some (a, rest) := (congrArg (upTo c) h.1).trans upTo_sign
  exact (congrArg (Token.shorter ts) hread).trans (shorter_some _)

end

end Token

end ShaderShrink

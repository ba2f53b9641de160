import ShaderShrink.Proofs.Program.Spelling

/-!
# Phrases

What a reader of statements sees of an expression: a phrase of words and signs with no keyword and
no semicolon, in which all parentheses are closed. `Token.written` gives the text of a phrase back
from its tokens (`Token.Phrase.written_append`), so expressions with the same tokens have the same
text.
-/

namespace ShaderShrink

open Token

namespace Token

/-- The words that only statements have. -/
def keywords : List (List Char) := ["if", "else", "while", "return", "discard"].map String.toList

/-- A word that only statements have, as a token. -/
def keyword (text : String) : Token := .word text.toList

/-- Whether a sign stands between operands or in front of one. -/
def isOperator (text : List Char) : Bool :=
  !([['('], [')'], [','], [';'], ['\x7b'], ['\x7d']].contains text)

/-- The tokens of an expression, or of arguments, with their text. -/
inductive Phrase : List Token → List Char → Prop
  | word {s : List Char} : s ∉ keywords → Phrase [.word s] s
  | before (op : List Char) {ts : List Token} {s : List Char} :
    isOperator op = true → Phrase ts s → Phrase (.sign op :: ts) (op ++ s)
  | between (op : List Char) {ts us : List Token} {s t : List Char} :
    isOperator op = true → Phrase ts s → Phrase us t →
      Phrase (ts ++ .sign op :: us) (s ++ ' ' :: (op ++ ' ' :: t))
  | comma {ts us : List Token} {s t : List Char} :
    Phrase ts s → Phrase us t → Phrase (ts ++ .sign [','] :: us) (s ++ ',' :: ' ' :: t)
  | enclosed {ts : List Token} {s : List Char} :
    Phrase ts s → Phrase (enclosed ts) ('(' :: (s ++ [')']))
  | call {callee : List Char} {ts : List Token} {s : List Char} :
    callee ∉ keywords → Phrase ts s →
      Phrase (.word callee :: Token.enclosed ts) (callee ++ '(' :: (s ++ [')']))
  | callEmpty {callee : List Char} :
    callee ∉ keywords → Phrase (.word callee :: Token.enclosed []) (callee ++ ['(', ')'])

/-- The text of some tokens, behind an operand or not: there are blanks around an operator behind an
operand, and behind a comma. -/
def written (operand : Bool) : List Token → List Char
  | [] => []
  | .word s :: ts => s ++ written true ts
  | .sign s :: ts =>
    if s = ['('] then '(' :: written false ts
    else if s = [')'] then ')' :: written true ts
    else if s = [','] then ',' :: ' ' :: written false ts
    else if operand then ' ' :: (s ++ ' ' :: written false ts)
    else s ++ written false ts

/-- The number of open parentheses behind a token. -/
def depthBehind (depth : Nat) (t : Token) : Nat :=
  if t = .sign ['('] then depth + 1 else if t = .sign [')'] then depth - 1 else depth

/-- The tokens up to the parenthesis that closes the ones in front of them, and those behind it;
`depth` parentheses are open that are not among the ones in front. -/
def takeClosed : Nat → List Token → Option (List Token × List Token)
  | _, [] => none
  | depth, t :: ts =>
    if depth = 0 ∧ t = .sign [')'] then some ([], ts)
    else (takeClosed (depthBehind depth t) ts).map fun (inner, rest) => (t :: inner, rest)

/-- What stands between parentheses, and the tokens behind them. -/
def takeEnclosed (ts : List Token) : Option (List Token × List Token) :=
  (skip '(' ts).bind (takeClosed 0)

/-- The tokens up to the first semicolon, and those behind it. -/
def takeLine : List Token → Option (List Token × List Token)
  | [] => none
  | t :: ts =>
    if t = .sign [';'] then some ([], ts)
    else (takeLine ts).map fun (line, rest) => (t :: line, rest)

/-- The words that some tokens start with, and the tokens behind them. -/
def takeWords : List Token → List String × List Token
  | .word s :: ts => (String.ofList s :: (takeWords ts).1, (takeWords ts).2)
  | ts => ([], ts)

section
variable {t : Token} {ts us rest : List Token} {s text : List Char} {depth : Nat}

/-! ## Texts of phrases -/

/-- An operator has blanks around it if it stands behind an operand. -/
theorem written_operator (h : isOperator s = true) (operand : Bool) :
    written operand (.sign s :: ts) =
      if operand then ' ' :: (s ++ ' ' :: written false ts) else s ++ written false ts := by
  have hs : s ≠ ['('] ∧ s ≠ [')'] ∧ s ≠ [','] := by
    simp_all [isOperator]
  rw [written, if_neg hs.1, if_neg hs.2.1, if_neg hs.2.2]

/-- The text of a phrase is given back by its tokens. -/
theorem Phrase.written_append (h : Phrase ts s) (rest : List Token) :
    written false (ts ++ rest) = s ++ written true rest := by
  induction h generalizing rest with
  | word => rfl
  | before op hop _ ih =>
    rw [List.cons_append, written_operator hop, ih]
    simp
  | between op hop _ _ ihs iht =>
    rw [List.append_assoc, List.cons_append, ihs, written_operator hop, iht]
    simp
  | comma _ _ ihs iht =>
    rw [List.append_assoc, List.cons_append, ihs, written, iht]
    simp
  | enclosed _ ih =>
    rw [Token.enclosed, List.cons_append, List.append_assoc, written, ih]
    simp [written]
  | call _ _ ih =>
    rw [Token.enclosed, List.cons_append, List.cons_append, List.append_assoc, written, written, ih]
    simp [written]
  | callEmpty => simp [Token.enclosed, written]

/-! ## Closed parentheses -/

/-- All parentheses in the tokens are closed. -/
def Closed (ts : List Token) : Prop :=
  ∀ depth rest, takeClosed depth (ts ++ rest) =
    (takeClosed depth rest).map fun (inner, rest) => (ts ++ inner, rest)

/-- Without tokens there is no open parenthesis. -/
theorem closed_nil : Closed [] := by
  intro depth rest
  simp

/-- Closed tokens may follow each other. -/
theorem Closed.append (ht : Closed ts) (hu : Closed us) : Closed (ts ++ us) := by
  intro depth rest
  rw [List.append_assoc, ht, hu, Option.map_map]
  simp [Function.comp_def]

/-- A token that is no parenthesis is closed. -/
theorem closed_singleton (h : t ≠ .sign ['('] ∧ t ≠ .sign [')']) : Closed [t] := by
  intro depth rest
  rw [List.singleton_append, takeClosed, depthBehind, if_neg (fun hand => h.2 hand.2), if_neg h.1,
    if_neg h.2]
  rfl

/-- Closed tokens may be put between parentheses. -/
theorem Closed.enclosed (h : Closed ts) : Closed (Token.enclosed ts) := by
  intro depth rest
  rw [Token.enclosed, List.cons_append, List.append_assoc, takeClosed, if_neg (by simp), h,
    List.singleton_append]
  simp [takeClosed, depthBehind, Function.comp_def]

/-- What is taken up to the closing parenthesis are the closed tokens in front of it. -/
theorem takeClosed_of_closed (h : Closed ts) :
    takeClosed 0 (ts ++ .sign [')'] :: rest) = some (ts, rest) := by
  rw [h]
  simp [takeClosed]

/-- Parentheses around tokens are taken away. -/
theorem readsFrom_enclosed (h : Closed ts) :
    ReadsFrom takeEnclosed (Token.enclosed ts ++ rest) ts rest := by
  refine ⟨?_, length_lt_append (List.cons_ne_nil _ _)⟩
  rw [Token.enclosed, List.cons_append, List.append_assoc, takeEnclosed, skip, if_pos rfl,
    Option.bind_some, List.singleton_append, takeClosed_of_closed h]

/-- All parentheses in a phrase are closed. -/
theorem Phrase.closed (h : Phrase ts s) : Closed ts := by
  have hword {s : List Char} : Closed [.word s] := closed_singleton (by simp)
  have hop {op : List Char} (h : isOperator op = true) : Closed [.sign op] :=
    closed_singleton (by simp_all [isOperator])
  induction h with
  | word => exact hword
  | before op hs _ ih => exact (hop hs).append ih
  | between op hs _ _ iht ihu => exact iht.append ((hop hs).append ihu)
  | comma _ _ iht ihu => exact iht.append ((closed_singleton (by simp)).append ihu)
  | enclosed _ ih => exact ih.enclosed
  | call _ _ ih => exact hword.append ih.enclosed
  | callEmpty => exact hword.append closed_nil.enclosed

/-! ## Lines -/

/-- A line ends at its first semicolon. -/
theorem takeLine_append (h : .sign [';'] ∉ ts) :
    takeLine (ts ++ .sign [';'] :: rest) = some (ts, rest) := by
  induction ts with
  | nil => rfl
  | cons t ts ih =>
    obtain ⟨ht, hts⟩ := not_or.1 (mt List.mem_cons.2 h)
    rw [List.cons_append, takeLine, if_neg (Ne.symm ht), ih hts]
    rfl

/-- There is no semicolon in a phrase. -/
theorem Phrase.not_mem_semicolon (h : Phrase ts s) : .sign [';'] ∉ ts := by
  have hop {op : List Char} (h : isOperator op = true) : [';'] ≠ op := by
    rintro rfl
    cases h
  induction h with
  | before op h _ ih => simp [hop h, ih]
  | between op h _ _ iht ihu => simp [hop h, iht, ihu]
  | _ => simp_all [Token.enclosed]

/-! ## Starts -/

/-- Whether an expression may start with the token. -/
def startsPhrase : Token → Bool
  | .word s => !(keywords.contains s)
  | .sign s => !([[';'], ['\x7b'], ['\x7d']].contains s)

/-- A word may start a phrase unless it is a keyword. -/
theorem startsPhrase_word : startsPhrase (.word s) = true ↔ s ∉ keywords := by
  simp [startsPhrase]

/-- A sign may start a phrase unless it is a semicolon or a brace. -/
theorem startsPhrase_sign :
    startsPhrase (.sign s) = true ↔ s ∉ [[';'], ['\x7b'], ['\x7d']] := by
  simp [startsPhrase]

/-- A phrase starts with a token that may start one. -/
theorem Phrase.exists_cons (h : Phrase ts s) : ∃ t us, ts = t :: us ∧ startsPhrase t = true := by
  induction h with
  | word h => exact ⟨_, _, rfl, startsPhrase_word.2 h⟩
  | before op hop _ _ => exact ⟨_, _, rfl, by simp_all [isOperator, startsPhrase]⟩
  | between _ _ _ _ ih _ | comma _ _ ih _ =>
    obtain ⟨t, us, rfl, ht⟩ := ih
    exact ⟨t, _, rfl, ht⟩
  | enclosed => exact ⟨_, _, rfl, rfl⟩
  | call h => exact ⟨_, _, rfl, startsPhrase_word.2 h⟩
  | callEmpty h => exact ⟨_, _, rfl, startsPhrase_word.2 h⟩

/-- No phrase starts with two words. -/
theorem Phrase.length_takeWords_le (h : Phrase ts s) (sign : List Char) (rest : List Token) :
    (takeWords (ts ++ .sign sign :: rest)).1.length ≤ 1 := by
  induction h generalizing sign rest with
  | word => simp [takeWords]
  | before => simp [takeWords]
  | between _ _ _ _ ih _ | comma _ _ ih _ =>
    rw [List.append_assoc, List.cons_append]
    exact ih _ _
  | enclosed => simp [takeWords, Token.enclosed]
  | call => simp [takeWords, Token.enclosed]
  | callEmpty => simp [takeWords, Token.enclosed]

/-- A number is no keyword. -/
theorem not_mem_keywords (h : isNumber s = true) : s ∉ keywords := by
  obtain ⟨c, t, rfl, hc⟩ := exists_cons_of_isNumber h
  have hstart : (keywords.all fun word => word.head?.all fun d => !(d.isDigit || d = '.')) = true :=
    by decide
  intro hmem
  have hfirst := List.all_eq_true.1 hstart _ hmem
  simp_all [startsNumber]

/-- A number is a phrase. -/
theorem phrase_numeral (h : isNumeral s = true) : Phrase (numeral s) s := by
  rcases numeral_cases h with ⟨hs, he⟩ | ⟨t, rfl, ht, he⟩
  · rw [he]
    exact .word (not_mem_keywords hs)
  · rw [he]
    exact .before ['-'] rfl (.word (not_mem_keywords ht))

end

end Token

/-! ## Expressions are phrases -/

/-- The name is a name and no keyword. -/
def IsUnreserved (name : String) : Prop := isName name.toList = true ∧ name.toList ∉ keywords

instance {name : String} : Decidable (IsUnreserved name) := inferInstanceAs (Decidable (_ ∧ _))

namespace Expr

/-- The names of an expression are names other than keywords, and its float literals are numbers. -/
def Readable : Expr → Prop := Spelled IsUnreserved fun text => isNumeral text.toList = true

section
variable {e : Expr} {text : String} {level : Nat} {op : UnaryOp} {ts : List Token}

/-- A readable expression is clean. -/
theorem Readable.clean (h : e.Readable) : e.Clean :=
  h.mono (fun _ h => h.1) fun _ h => h

/-- A phrase at its place is a phrase. -/
theorem phrase_placed (level : Nat) (h : Phrase ts text.toList) :
    Phrase (placedTokens level e ts) (placed level e text).toList := by
  rw [toList_placed, placedTokens]
  split
  · exact h.enclosed
  · exact h

/-- A phrase as an operand is a phrase. -/
theorem phrase_operandText (op : UnaryOp) (h : Phrase ts text.toList) :
    Phrase (operandTokens op e ts) (operandText op e text).toList := by
  rw [toList_operandText, operandTokens]
  split
  · exact h.enclosed
  · exact phrase_placed unaryLevel h

mutual

/-- An expression is a phrase with the text of the expression. -/
theorem phrase_render : ∀ {e : Expr}, e.Readable → Phrase e.tokens e.render.toList
  | .int value, _ => phrase_numeral (isNumeral_toString value.toInt)
  | .float _, h => phrase_numeral h
  | .bool true, _ => .word (by decide)
  | .bool false, _ => .word (by decide)
  | .ident _, h => .word h.2
  | .unary op e, h => by
    have hop : isOperator op.text.toList = true := by cases op <;> decide
    have hoperand := Phrase.before _ hop (phrase_operandText (e := e) op (phrase_render (e := e) h))
    simpa [render, tokens] using hoperand
  | .binary op l r, h => by
    have hop : isOperator op.text.toList = true := by cases op <;> decide
    have hbetween := Phrase.between _ hop
      (phrase_placed (e := l) (leftLevel op) (phrase_render h.1))
      (phrase_placed (e := r) (rightLevel op) (phrase_render h.2))
    simpa [render, tokens] using hbetween
  | .call callee args, h => by
    rw [render, String.toList_append, toList_parenthesize, tokens]
    by_cases hne : args = []
    · rw [hne]
      exact .callEmpty h.1.2
    · exact .call h.1.2 (phrase_renderArgs hne h.2)
  | .paren e, h => by
    rw [render, toList_parenthesize]
    exact (phrase_render (e := e) h).enclosed
  | .ternary c t f, h => by
    have hcolon := Phrase.between [':'] rfl
      (phrase_placed (e := t) assignmentLevel (phrase_render h.2.1))
      (phrase_placed (e := f) ternaryLevel (phrase_render h.2.2))
    have hchoice := Phrase.between ['?'] rfl
      (phrase_placed (e := c) (ternaryLevel + 1) (phrase_render h.1)) hcolon
    simpa [render, tokens] using hchoice

/-- Arguments are a phrase if there are any. -/
theorem phrase_renderArgs : ∀ {es : List Expr}, es ≠ [] →
    SpelledAll IsUnreserved (fun text => isNumeral text.toList = true) es →
      Phrase (argTokens es) (renderArgs es).toList
  | [], hne, _ => absurd rfl hne
  | [e], _, h => phrase_placed assignmentLevel (phrase_render h.1)
  | e :: e' :: rest, _, h => by
    have hcomma := Phrase.comma
      (phrase_placed (e := e) assignmentLevel (phrase_render h.1))
      (phrase_renderArgs (List.cons_ne_nil e' rest) h.2)
    simpa [renderArgs, argTokens] using hcomma

end

/-- An expression by its text alone. -/
def flat (e : Expr) : Expr := .ident e.render

/-- The expression, by its text alone, that some tokens are. -/
def ofTokens (ts : List Token) : Expr := .ident (String.ofList (written false ts))

/-- The text of an expression is given back by its tokens. -/
theorem ofTokens_tokens (h : e.Readable) : ofTokens e.tokens = e.flat := by
  have hwritten := (phrase_render h).written_append []
  rw [List.append_nil, written, List.append_nil] at hwritten
  rw [ofTokens, hwritten, String.ofList_toList, flat]

end

end Expr

end ShaderShrink

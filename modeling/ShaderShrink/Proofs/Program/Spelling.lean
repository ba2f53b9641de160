import ShaderShrink.Program.Render
import ShaderShrink.Proofs.Json.Scalar
import ShaderShrink.Proofs.Text.Tokens

/-!
# The tokens of expressions

If the names in an expression are names and its float literals are numbers (`Expr.Clean`), then the
tokens of its text are those that its operators, its operands and the parentheses around them ask
for (`Expr.lexes_render`): blanks and parentheses keep operators apart, and in particular no two
minus signs are next to each other (`Expr.not_doubleMinus_render`).
-/

namespace ShaderShrink

open Token

namespace Token

/-- Some tokens between parentheses. -/
def enclosed (ts : List Token) : List Token := .sign ['('] :: (ts ++ [.sign [')']])

/-- The digits of a number are a number. -/
theorem isNumber_toDigits (n : Nat) : isNumber (Nat.toDigits 10 n) = true :=
  isNumber_of_digits Nat.toDigits_ne_nil fun _ => Nat.isDigit_of_mem_toDigits (by omega) (by omega)

/-- The text of an integer is a number, maybe with a sign. -/
theorem isNumeral_toString (n : Int) : isNumeral (toString n).toList = true := by
  rw [Json.toList_toString]
  cases n with
  | negSucc n => exact isNumber_toDigits (n + 1)
  | ofNat n => exact isNumeral_of_isNumber (isNumber_toDigits n)

end Token

/-- Operators with two operands bind less tightly than those with one. -/
theorem BinaryOp.precedence_lt (op : BinaryOp) : op.precedence < Expr.unaryLevel := by
  cases op <;> decide

namespace Expr

mutual

/-- The names and the float literals of an expression are as asked for. -/
def Spelled (name float : String → Prop) : Expr → Prop
  | .int _ | .bool _ => True
  | .float text => float text
  | .ident n => name n
  | .unary _ e => e.Spelled name float
  | .binary _ l r => l.Spelled name float ∧ r.Spelled name float
  | .call callee args => name callee ∧ SpelledAll name float args
  | .paren e => e.Spelled name float
  | .ternary c t f => c.Spelled name float ∧ t.Spelled name float ∧ f.Spelled name float

/-- The names and the float literals of some expressions are as asked for. -/
def SpelledAll (name float : String → Prop) : List Expr → Prop
  | [] => True
  | e :: rest => e.Spelled name float ∧ SpelledAll name float rest

end

/-- The names of an expression are names, and its float literals are numbers. -/
def Clean : Expr → Prop :=
  Spelled (fun n => isName n.toList = true) fun text => isNumeral text.toList = true

/-- The names of some expressions are names, and their float literals are numbers. -/
def AllClean : List Expr → Prop :=
  SpelledAll (fun n => isName n.toList = true) fun text => isNumeral text.toList = true

mutual

/-- What is asked for may be less. -/
theorem Spelled.mono {name name' float float' : String → Prop} (hname : ∀ n, name n → name' n)
    (hfloat : ∀ text, float text → float' text) : ∀ {e : Expr}, e.Spelled name float →
      e.Spelled name' float'
  | .int _, _ | .bool _, _ => trivial
  | .float text, h => hfloat text h
  | .ident n, h => hname n h
  | .unary _ e, h => Spelled.mono (e := e) hname hfloat h
  | .binary _ _ _, h => ⟨h.1.mono hname hfloat, h.2.mono hname hfloat⟩
  | .call callee _, h => ⟨hname callee h.1, SpelledAll.mono hname hfloat h.2⟩
  | .paren e, h => Spelled.mono (e := e) hname hfloat h
  | .ternary _ _ _, h =>
    ⟨h.1.mono hname hfloat, h.2.1.mono hname hfloat, h.2.2.mono hname hfloat⟩

/-- What is asked for of some expressions may be less. -/
theorem SpelledAll.mono {name name' float float' : String → Prop} (hname : ∀ n, name n → name' n)
    (hfloat : ∀ text, float text → float' text) : ∀ {es : List Expr}, SpelledAll name float es →
      SpelledAll name' float' es
  | [], _ => trivial
  | _ :: _, h => ⟨h.1.mono hname hfloat, SpelledAll.mono hname hfloat h.2⟩

end

/-- The tokens of an expression at a place that asks for at least the precedence `level`. -/
def placedTokens (level : Nat) (e : Expr) (ts : List Token) : List Token :=
  if e.precedence < level then enclosed ts else ts

/-- The tokens of an operand after an operator. -/
def operandTokens (op : UnaryOp) (e : Expr) (ts : List Token) : List Token :=
  if op = .neg ∧ e.opensWithMinus then enclosed ts else placedTokens unaryLevel e ts

mutual

/-- The tokens of an expression on its own. -/
def tokens : Expr → List Token
  | .int value => numeral (toString value.toInt).toList
  | .float text => numeral text.toList
  | .bool value => [.word (if value then "true" else "false").toList]
  | .ident name => [.word name.toList]
  | .unary op e => .sign op.text.toList :: operandTokens op e e.tokens
  | .binary op l r =>
    placedTokens (leftLevel op) l l.tokens
      ++ .sign op.text.toList :: placedTokens (rightLevel op) r r.tokens
  | .call callee args => .word callee.toList :: enclosed (argTokens args)
  | .paren e => enclosed e.tokens
  | .ternary c t f =>
    placedTokens (ternaryLevel + 1) c c.tokens
      ++ .sign ['?'] :: (placedTokens assignmentLevel t t.tokens
        ++ .sign [':'] :: placedTokens ternaryLevel f f.tokens)

/-- The tokens of arguments, with commas between them. -/
def argTokens : List Expr → List Token
  | [] => []
  | [e] => placedTokens assignmentLevel e e.tokens
  | e :: rest => placedTokens assignmentLevel e e.tokens ++ .sign [','] :: argTokens rest

end

/-- Every expression has tokens. -/
theorem tokens_ne_nil (e : Expr) : e.tokens ≠ [] := by
  cases e with
  | int value => exact numeral_ne_nil _
  | float text => exact numeral_ne_nil _
  | binary | ternary => simp [tokens]
  | _ => exact List.cons_ne_nil _ _

/-- Every expression has tokens at its place. -/
theorem placedTokens_ne_nil (level : Nat) (e : Expr) : placedTokens level e e.tokens ≠ [] := by
  rw [placedTokens]
  split
  · exact List.cons_ne_nil _ _
  · exact e.tokens_ne_nil

/-- Every operand has tokens. -/
theorem operandTokens_ne_nil (op : UnaryOp) (e : Expr) : operandTokens op e e.tokens ≠ [] := by
  rw [operandTokens]
  split
  · exact List.cons_ne_nil _ _
  · exact placedTokens_ne_nil unaryLevel e

section
variable {e : Expr} {text : String} {level : Nat} {op : UnaryOp}

/-- A text in parentheses, by its characters. -/
theorem toList_parenthesize : (Expr.parenthesize text).toList = '(' :: (text.toList ++ [')']) := by
  simp [Expr.parenthesize]

/-- The text of an expression at its place, by its characters. -/
theorem toList_placed : (placed level e text).toList =
    if e.precedence < level then '(' :: (text.toList ++ [')']) else text.toList := by
  rw [placed]
  split
  · exact toList_parenthesize
  · rfl

/-- The text of an operand, by its characters. -/
theorem toList_operandText : (operandText op e text).toList =
    if op = .neg ∧ e.opensWithMinus then '(' :: (text.toList ++ [')'])
    else (placed unaryLevel e text).toList := by
  rw [operandText]
  split
  · exact toList_parenthesize
  · rfl

/-! ## What expressions start with -/

/-- Whether an expression may start with the character. -/
def isOpener (c : Char) : Bool := isNameChar c || c ∈ ['.', '-', '!', '~', '(']

/-- An operator in front of an operand does not make another one with what the operand starts
with. -/
theorem not_mem_pairs_opener {c d : Char} (hop : op.text.toList = [c]) (hd : isOpener d = true)
    (hminus : op = .neg → d ≠ '-') : [c, d] ∉ pairs := by
  rcases Bool.or_eq_true_iff.1 hd with hd | hd
  · exact not_mem_pairs (.inl hd)
  · have hd : d = '.' ∨ d = '-' ∨ d = '!' ∨ d = '~' ∨ d = '(' := by simpa using hd
    cases op with
    | neg =>
      obtain rfl : '-' = c := by simpa [UnaryOp.text] using hop
      rcases hd with rfl | rfl | rfl | rfl | rfl
      · decide
      · exact absurd rfl (hminus rfl)
      · decide
      · decide
      · decide
    | not =>
      obtain rfl : '!' = c := by simpa [UnaryOp.text] using hop
      rcases hd with rfl | rfl | rfl | rfl | rfl <;> decide
    | bitNot =>
      obtain rfl : '~' = c := by simpa [UnaryOp.text] using hop
      rcases hd with rfl | rfl | rfl | rfl | rfl <;> decide

/-- The text starts as expressions do. -/
def Opens (s : List Char) : Prop := ∃ c t, s = c :: t ∧ isOpener c = true

/-- What starts as expressions do goes on doing so whatever is behind it. -/
theorem Opens.append {s : List Char} (h : Opens s) (t : List Char) : Opens (s ++ t) := by
  obtain ⟨c, s, rfl, hc⟩ := h
  exact ⟨c, s ++ t, rfl, hc⟩

/-- A word starts as expressions do. -/
theorem opens_of_isWord {s : List Char} (h : isWord s = true) : Opens s := by
  cases s with
  | nil => cases h
  | cons c t =>
    refine ⟨c, t, rfl, ?_⟩
    rcases isNameChar_of_isWord h with hc | rfl
    · rw [isOpener, hc, Bool.true_or]
    · rfl

/-- A name starts as expressions do. -/
theorem opens_of_isName {s : List Char} (h : isName s = true) : Opens s :=
  opens_of_isWord (Bool.or_eq_true_iff.2 (.inl h))

/-- A number starts as expressions do. -/
theorem opens_of_isNumeral {s : List Char} (h : isNumeral s = true) : Opens s := by
  rcases numeral_cases h with ⟨hs, -⟩ | ⟨t, rfl, -, -⟩
  · exact opens_of_isWord (Bool.or_eq_true_iff.2 (.inr hs))
  · exact ⟨'-', t, rfl, rfl⟩

/-- A text that starts as expressions do still does so at its place. -/
theorem opens_placed (h : Opens text.toList) : Opens (placed level e text).toList := by
  rw [toList_placed]
  split
  · exact ⟨'(', _, rfl, rfl⟩
  · exact h

/-- Every expression starts as expressions do. -/
theorem opens_render : ∀ {e : Expr}, e.Clean → Opens e.render.toList
  | .int value, _ => opens_of_isNumeral (isNumeral_toString value.toInt)
  | .float _, h => opens_of_isNumeral h
  | .bool true, _ => ⟨'t', _, rfl, rfl⟩
  | .bool false, _ => ⟨'f', _, rfl, rfl⟩
  | .ident _, h => opens_of_isName h
  | .unary op e, _ => by
    rw [render, String.toList_append]
    cases op
    all_goals exact ⟨_, _, rfl, rfl⟩
  | .binary op l r, h => by
    simp only [render, String.toList_append, List.append_assoc]
    exact (opens_placed (opens_render h.1)).append _
  | .call callee args, h => by
    rw [render, String.toList_append]
    exact (opens_of_isName h.1).append _
  | .paren e, _ => by
    rw [render, toList_parenthesize]
    exact ⟨'(', _, rfl, rfl⟩
  | .ternary c t f, h => by
    simp only [render, String.toList_append, List.append_assoc]
    exact (opens_placed (opens_render h.1)).append _

/-- An integer whose text starts with a minus sign is negative. -/
theorem lt_zero_of_startsWithMinus {value : Int64}
    (h : startsWithMinus (toString value.toInt) = true) : value < 0 := by
  have hhead := of_decide_eq_true h
  rw [Json.toList_toString] at hhead
  rw [Int64.lt_iff_toInt_lt]
  cases hvalue : value.toInt with
  | negSucc n => exact Int.negSucc_lt_zero n
  | ofNat n =>
    obtain ⟨c, t, hc, hdigit⟩ := Json.exists_cons_toDigits n
    simp only [hvalue, hc, List.head?_cons, Option.some.injEq] at hhead
    rw [hhead] at hdigit
    cases hdigit

/-- A name does not start with a minus sign. -/
theorem not_startsWithMinus {s : String} (h : isName text.toList = true) :
    startsWithMinus (text ++ s) = false := by
  rw [startsWithMinus, String.toList_append]
  cases htext : text.toList with
  | nil =>
    rw [htext] at h
    cases h
  | cons c t =>
    rw [htext] at h
    obtain ⟨hstart, -⟩ := Bool.and_eq_true_iff.1 h
    refine decide_eq_false fun hhead => ?_
    obtain rfl : c = '-' := Option.some.inj hhead
    cases hstart

/-- An operand that needs no parentheses for its precedence starts with a minus sign only if it is
known to. -/
theorem opensWithMinus_of_render (h : e.Clean) (hp : unaryLevel ≤ e.precedence)
    (hm : startsWithMinus e.render = true) : e.opensWithMinus = true := by
  cases e with
  | int value => exact decide_eq_true (lt_zero_of_startsWithMinus hm)
  | float => exact hm
  | bool value => cases value <;> cases hm
  | ident name =>
    have hname := not_startsWithMinus (s := "") h
    rw [String.append_empty] at hname
    exact absurd hm (hname ▸ Bool.false_ne_true)
  | unary op e =>
    cases op with
    | neg => rfl
    | not | bitNot =>
      rw [startsWithMinus, render, String.toList_append] at hm
      cases hm
  | binary op => exact absurd hp (Nat.not_le.2 op.precedence_lt)
  | call callee args => exact absurd hm (not_startsWithMinus h.1 ▸ Bool.false_ne_true)
  | paren e =>
    rw [startsWithMinus, render, toList_parenthesize] at hm
    cases hm
  | ternary => exact absurd hp (by decide : ¬ unaryLevel ≤ ternaryLevel)

/-! ## Tokens -/

/-- The text of an operand starts as expressions do, and not with a minus sign after another one. -/
theorem exists_cons_operandText (op : UnaryOp) (h : e.Clean) :
    ∃ c t, (operandText op e e.render).toList = c :: t ∧ isOpener c = true ∧
      (op = .neg → c ≠ '-') := by
  rw [toList_operandText]
  split
  · exact ⟨'(', _, rfl, rfl, fun _ => by decide⟩
  · next hminus =>
    rw [toList_placed]
    split
    · exact ⟨'(', _, rfl, rfl, fun _ => by decide⟩
    · next hlevel =>
      obtain ⟨c, t, ht, hc⟩ := opens_render h
      refine ⟨c, t, ht, hc, ?_⟩
      rintro rfl rfl
      refine hminus ⟨rfl, opensWithMinus_of_render h (Nat.le_of_not_lt hlevel) ?_⟩
      rw [startsWithMinus, ht]
      rfl

/-- The tokens of an expression at its place are those of its text there. -/
theorem lexes_placed (level : Nat) (h : Lexes text.toList e.tokens) :
    Lexes (placed level e text).toList (placedTokens level e e.tokens) := by
  rw [toList_placed, placedTokens]
  split
  · exact h.parenthesized
  · exact h

/-- The tokens of an operand are those of its text. -/
theorem lexes_operandText (op : UnaryOp) (h : Lexes text.toList e.tokens) :
    Lexes (operandText op e text).toList (operandTokens op e e.tokens) := by
  rw [toList_operandText, operandTokens]
  split
  · exact h.parenthesized
  · exact lexes_placed unaryLevel h

/-- An operator in front of a blank is one token. -/
theorem lex_binaryOp (op : BinaryOp) (s : List Char) :
    lex (op.text.toList ++ ' ' :: s) = .sign op.text.toList :: lex (' ' :: s) := by
  have hsingle {c : Char} (hc : isSign c = true) (hpair : [c, ' '] ∉ pairs) :
      lex (c :: ' ' :: s) = .sign [c] :: lex (' ' :: s) :=
    lex_sign hc (by rintro d ⟨⟩; exact hpair)
  cases op with
  | add | sub | mul | div | mod | lt | gt | assign => exact hsingle (by decide) (by decide)
  | le | ge | eq | ne | and | or => exact lex_pair (by decide) (by decide)

mutual

/-- The tokens of an expression are those of its text. -/
theorem lexes_render : ∀ {e : Expr}, e.Clean → Lexes e.render.toList e.tokens
  | .int value, _ => lexes_numeral (isNumeral_toString value.toInt)
  | .float _, h => lexes_numeral h
  | .bool true, _ => lexes_word (by decide)
  | .bool false, _ => lexes_word (by decide)
  | .ident _, h => lexes_word (Bool.or_eq_true_iff.2 (.inl h))
  | .unary op e, h => by
    obtain ⟨c, t, ht, hc, hminus⟩ := exists_cons_operandText (e := e) op h
    have hoperand := lexes_operandText op (lexes_render (e := e) h)
    rw [ht] at hoperand
    rw [render, String.toList_append, ht, tokens]
    cases op
    all_goals exact hoperand.sign (by decide) (not_mem_pairs_opener rfl hc hminus)
  | .binary op l r, h => by
    have hbetween := (lexes_placed (leftLevel op) (lexes_render h.1)).between op.text.toList
      (lex_binaryOp op) (lexes_placed (rightLevel op) (lexes_render h.2))
    simpa [render, tokens] using hbetween
  | .call callee args, h => by
    have hcallee : Lexes callee.toList [.word callee.toList] :=
      lexes_word (Bool.or_eq_true_iff.2 (.inl h.1))
    rw [render, String.toList_append, toList_parenthesize, tokens]
    intro rest hrest
    rw [List.append_assoc, hcallee _ rfl, (lexes_renderArgs h.2).parenthesized _ hrest]
    rfl
  | .paren e, h => by
    rw [render, toList_parenthesize]
    exact (lexes_render (e := e) h).parenthesized
  | .ternary c t f, h => by
    have hcolon := (lexes_placed assignmentLevel (lexes_render h.2.1)).between [':']
      (fun s => lex_mark (by decide)) (lexes_placed ternaryLevel (lexes_render h.2.2))
    have hchoice := (lexes_placed (ternaryLevel + 1) (lexes_render h.1)).between ['?']
      (fun s => lex_mark (by decide)) hcolon
    simpa [render, tokens] using hchoice

/-- The tokens of arguments are those of their text. -/
theorem lexes_renderArgs : ∀ {es : List Expr}, AllClean es →
    Lexes (renderArgs es).toList (argTokens es)
  | [], _ => fun _ _ => rfl
  | [_], h => lexes_placed assignmentLevel (lexes_render h.1)
  | e :: e' :: rest, h => by
    have hcomma := (lexes_placed assignmentLevel (lexes_render h.1)).comma
      (lexes_renderArgs h.2)
    simpa [renderArgs, argTokens] using hcomma

end

/-! ## Minus signs -/

/-- Parentheses put no two minus signs next to each other. -/
theorem not_doubleMinus_parenthesized {s : List Char} (h : ¬ DoubleMinus s) :
    ¬ DoubleMinus ('(' :: (s ++ [')'])) :=
  not_doubleMinus_cons (not_doubleMinus_append h (by decide) not_doubleMinus_nil) (.inl (by decide))

/-- The place of an expression puts no two minus signs next to each other. -/
theorem not_doubleMinus_placed (level : Nat) (h : ¬ DoubleMinus text.toList) :
    ¬ DoubleMinus (placed level e text).toList := by
  rw [toList_placed]
  split
  · exact not_doubleMinus_parenthesized h
  · exact h

/-- No two minus signs are next to each other in the text of an operand. -/
theorem not_doubleMinus_operandText (op : UnaryOp) (h : ¬ DoubleMinus text.toList) :
    ¬ DoubleMinus (operandText op e text).toList := by
  rw [toList_operandText]
  split
  · exact not_doubleMinus_parenthesized h
  · exact not_doubleMinus_placed unaryLevel h

/-- No operator has two minus signs. -/
theorem not_doubleMinus_binaryOp (op : BinaryOp) : ¬ DoubleMinus op.text.toList := by
  cases op <;> exact fun h => absurd h (by decide)

/-- An operator between blanks keeps the minus signs on its sides apart. -/
theorem not_doubleMinus_between {s t : List Char} (op : List Char) (hs : ¬ DoubleMinus s)
    (hop : ¬ DoubleMinus op) (ht : ¬ DoubleMinus t) :
    ¬ DoubleMinus (s ++ ' ' :: (op ++ ' ' :: t)) :=
  not_doubleMinus_append hs (by decide) (not_doubleMinus_append hop (by decide) ht)

mutual

/-- No two minus signs are next to each other in the text of an expression. -/
theorem not_doubleMinus_render : ∀ {e : Expr}, e.Clean → ¬ DoubleMinus e.render.toList
  | .int value, _ => not_doubleMinus_numeral (isNumeral_toString value.toInt)
  | .float _, h => not_doubleMinus_numeral h
  | .bool true, _ => (not_doubleMinus_word (by decide)).1
  | .bool false, _ => (not_doubleMinus_word (by decide)).1
  | .ident _, h => (not_doubleMinus_word (Bool.or_eq_true_iff.2 (.inl h))).1
  | .unary op e, h => by
    obtain ⟨c, t, ht, -, hminus⟩ := exists_cons_operandText (e := e) op h
    have hoperand := not_doubleMinus_operandText (e := e) op (not_doubleMinus_render (e := e) h)
    rw [ht] at hoperand
    rw [render, String.toList_append, ht]
    cases op with
    | neg => exact not_doubleMinus_cons hoperand (.inr fun h => hminus rfl (Option.some.inj h))
    | not | bitNot => exact not_doubleMinus_cons hoperand (.inl (by decide))
  | .binary op l r, h => by
    have hbetween := not_doubleMinus_between op.text.toList
      (not_doubleMinus_placed (e := l) (leftLevel op) (not_doubleMinus_render h.1))
      (not_doubleMinus_binaryOp op)
      (not_doubleMinus_placed (e := r) (rightLevel op) (not_doubleMinus_render h.2))
    simpa [render] using hbetween
  | .call callee args, h => by
    have hcallee := (not_doubleMinus_word (Bool.or_eq_true_iff.2 (.inl h.1))).1
    have hargs := not_doubleMinus_append (not_doubleMinus_renderArgs h.2) (c := ')') (by decide)
      not_doubleMinus_nil
    rw [render, String.toList_append, toList_parenthesize]
    exact not_doubleMinus_append hcallee (by decide) hargs
  | .paren e, h => by
    rw [render, toList_parenthesize]
    exact not_doubleMinus_parenthesized (not_doubleMinus_render (e := e) h)
  | .ternary c t f, h => by
    have hcolon := not_doubleMinus_between [':']
      (not_doubleMinus_placed (e := t) assignmentLevel (not_doubleMinus_render h.2.1))
      (by decide)
      (not_doubleMinus_placed (e := f) ternaryLevel (not_doubleMinus_render h.2.2))
    have hchoice := not_doubleMinus_between ['?']
      (not_doubleMinus_placed (e := c) (ternaryLevel + 1) (not_doubleMinus_render h.1))
      (by decide) hcolon
    simpa [render] using hchoice

/-- No two minus signs are next to each other in the text of arguments. -/
theorem not_doubleMinus_renderArgs : ∀ {es : List Expr}, AllClean es →
    ¬ DoubleMinus (renderArgs es).toList
  | [], _ => not_doubleMinus_nil
  | [_], h => not_doubleMinus_placed assignmentLevel (not_doubleMinus_render h.1)
  | e :: e' :: rest, h => by
    have hrest := not_doubleMinus_cons (c := ' ') (not_doubleMinus_renderArgs h.2)
      (.inl (by decide))
    have hcomma := not_doubleMinus_append
      (not_doubleMinus_placed (e := e) assignmentLevel (not_doubleMinus_render h.1))
      (c := ',') (by decide) hrest
    simpa [renderArgs] using hcomma

end

end

end Expr

end ShaderShrink

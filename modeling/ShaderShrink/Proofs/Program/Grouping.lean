import ShaderShrink.Proofs.Program.Spelling

/-!
# How the text of an expression groups

`Grouping.read` reads an expression from its tokens and says how it groups: an operator with two
operands takes what binds at least as tightly as it asks for on its right, and parentheses leave
nothing behind.

An expression is read as it groups (`Expr.ofText?_render`). The induction is on the expression: it
is read at any place that asks for no more than its precedence, as long as what follows binds less
tightly than the right end of the expression (`Expr.ReadsBack`). So expressions with the same text
group alike (`Expr.render_unambiguous`).
-/

namespace ShaderShrink

open Token

/-- An expression by the way it groups: without parentheses, and with literals that have no sign. -/
inductive Grouping where
  | int (value : Nat)
  | float (text : String)
  | bool (value : Bool)
  | ident (name : String)
  | unary (op : UnaryOp) (operand : Grouping)
  | binary (op : BinaryOp) (lhs rhs : Grouping)
  | call (callee : String) (args : List Grouping)
  | ternary (cond onTrue onFalse : Grouping)

/-- The operator of one operand with the text. -/
def UnaryOp.ofText? (text : List Char) : Option UnaryOp :=
  [UnaryOp.neg, .not, .bitNot].find? fun op => op.text.toList = text

/-- The operator of two operands with the text. -/
def BinaryOp.ofText? (text : List Char) : Option BinaryOp :=
  [BinaryOp.add, .sub, .mul, .div, .mod, .lt, .le, .gt, .ge, .eq, .ne, .and, .or, .assign].find?
    fun op => op.text.toList = text

namespace Grouping

/-- What a word stands for on its own. -/
def ofWord (text : List Char) : Grouping :=
  if text = "true".toList then .bool true
  else if text = "false".toList then .bool false
  else if isName text then .ident (String.ofList text)
  else if text.all Char.isDigit then .int (Nat.ofDigitChars 10 text 0)
  else .float (String.ofList text)

mutual

/-- Reads an expression that binds at least as tightly as `level`, and gives what is behind it. -/
def read (level : Nat) (ts : List Token) : Option (Grouping × List Token) :=
  match ts with
  | .word callee :: .sign ['('] :: rest => do
    let (args, ⟨rest, _⟩) ← shorter rest (readArgs rest)
    goOn level (.call (String.ofList callee) args) rest
  | .word text :: rest => goOn level (ofWord text) rest
  | .sign ['('] :: rest => do
    let (g, ⟨rest, _⟩) ← shorter rest (upTo ')' (read Expr.assignmentLevel rest))
    goOn level g rest
  | .sign text :: rest => do
    let op ← UnaryOp.ofText? text
    let (g, ⟨rest, _⟩) ← shorter rest (read Expr.unaryLevel rest)
    goOn level (.unary op g) rest
  | [] => none
termination_by 3 * ts.length

/-- Goes on behind an operand as long as there are operators that bind at least as tightly as
`level`. The others are left to what asked for the operand. -/
def goOn (level : Nat) (g : Grouping) (ts : List Token) : Option (Grouping × List Token) :=
  match ts with
  | .sign ['?'] :: rest =>
    if level ≤ Expr.ternaryLevel then do
      let (t, ⟨rest, _⟩) ← shorter rest (upTo ':' (read Expr.assignmentLevel rest))
      let (f, ⟨rest, _⟩) ← shorter rest (read Expr.ternaryLevel rest)
      goOn level (.ternary g t f) rest
    else some (g, .sign ['?'] :: rest)
  | .sign text :: rest =>
    match BinaryOp.ofText? text with
    | some op =>
      if level ≤ op.precedence then do
        let (r, ⟨rest, _⟩) ← shorter rest (read (Expr.rightLevel op) rest)
        goOn level (.binary op g r) rest
      else some (g, .sign text :: rest)
    | none => some (g, .sign text :: rest)
  | ts => some (g, ts)
termination_by 3 * ts.length

/-- Reads arguments up to the closing parenthesis. -/
def readArgs (ts : List Token) : Option (List Grouping × List Token) :=
  match ts with
  | .sign [')'] :: rest => some ([], rest)
  | ts => readSomeArgs ts
termination_by 3 * ts.length + 2

/-- Reads one argument or more up to the closing parenthesis. -/
def readSomeArgs (ts : List Token) : Option (List Grouping × List Token) := do
  let (g, ⟨rest, h⟩) ← shorter ts (read Expr.assignmentLevel ts)
  if rest.head? = some (.sign [',']) then
    have : rest.tail.length < ts.length :=
      Nat.lt_of_le_of_lt (List.tail_sublist rest).length_le h
    let (args, rest) ← readSomeArgs rest.tail
    return (g :: args, rest)
  else upTo ')' (some ([g], rest))
termination_by 3 * ts.length + 1

end

/-- The grouping of a whole text. -/
def ofText? (text : String) : Option Grouping :=
  match read Expr.assignmentLevel (lex text.toList) with
  | some (g, []) => some g
  | _ => none

/-- How tightly the operator binds that some tokens start with; 0 if there is none. -/
def tightness : List Token → Nat
  | .sign ['?'] :: _ => Expr.ternaryLevel
  | .sign text :: _ => (BinaryOp.ofText? text).elim 0 BinaryOp.precedence
  | _ => 0

section
variable {level : Nat} {g r t f : Grouping} {args : List Grouping} {ts us rest : List Token}

/-! ## Steps of the reader -/

/-- No operator behind an operand binds as tightly as those with one operand. -/
theorem tightness_lt (ts : List Token) : tightness ts < Expr.unaryLevel := by
  unfold tightness
  split
  · decide
  · next text _ _ =>
    cases BinaryOp.ofText? text with
    | none => decide
    | some op => exact op.precedence_lt
  · decide

/-- An operator of two operands is found by its text. -/
theorem ofText?_text (op : BinaryOp) : BinaryOp.ofText? op.text.toList = some op := by
  cases op <;> rfl

/-- Tokens that start with an operator of two operands bind as tightly as it does. -/
theorem tightness_binary (op : BinaryOp) (rest : List Token) :
    tightness (.sign op.text.toList :: rest) = op.precedence := by
  cases op <;> rfl

/-- Where what follows binds less tightly, nothing of it belongs to the operand. -/
theorem goOn_of_tightness (h : tightness ts < level) : goOn level g ts = some (g, ts) := by
  unfold goOn
  split
  · exact if_neg (Nat.not_le.2 h)
  · next text rest hne =>
    have ht : tightness (.sign text :: rest) =
        (BinaryOp.ofText? text).elim 0 BinaryOp.precedence := by
      rw [tightness]
      exact hne
    rw [ht] at h
    split
    · next op hop =>
      rw [hop] at h
      exact if_neg (Nat.not_le.2 h)
    · rfl
  · rfl

/-- An operator of two operands that binds tightly enough takes the operand in front of it and the
one behind it. -/
theorem goOn_binary (op : BinaryOp) (h : level ≤ op.precedence)
    (hr : ReadsFrom (read (Expr.rightLevel op)) ts r rest) :
    goOn level g (.sign op.text.toList :: ts) = goOn level (.binary op g r) rest := by
  rw [goOn, ofText?_text]
  · simp only [if_pos h, hr.shorter, Option.bind_eq_bind, Option.bind_some]
  · cases op <;> decide

/-- A question mark takes the operand in front of it and the two that a colon separates. -/
theorem goOn_ternary (h : level ≤ Expr.ternaryLevel)
    (ht : ReadsFrom (read Expr.assignmentLevel) ts t (.sign [':'] :: us))
    (hf : ReadsFrom (read Expr.ternaryLevel) us f rest) :
    goOn level g (.sign ['?'] :: ts) = goOn level (.ternary g t f) rest := by
  rw [goOn]
  simp only [if_pos h, ht.shorter_upTo, hf.shorter, Option.bind_eq_bind, Option.bind_some]

/-- A word with no parenthesis behind it is an operand. -/
theorem read_word {text : List Char} (h : rest.head? ≠ some (.sign ['('])) :
    read level (.word text :: rest) = goOn level (ofWord text) rest := by
  rw [read]
  rintro more rfl
  exact h rfl

/-- An operator of one operand takes the one behind it. -/
theorem read_unary (op : UnaryOp) (h : ReadsFrom (read Expr.unaryLevel) ts g rest) :
    read level (.sign op.text.toList :: ts) = goOn level (.unary op g) rest := by
  have hop : UnaryOp.ofText? op.text.toList = some op := by cases op <;> rfl
  rw [read, hop]
  · simp only [h.shorter, Option.bind_eq_bind, Option.bind_some]
  · cases op <;> decide

/-- A word with a parenthesis behind it is a call. -/
theorem read_call {callee : List Char} (h : ReadsFrom readArgs ts args rest) :
    read level (.word callee :: .sign ['('] :: ts) =
      goOn level (.call (String.ofList callee) args) rest := by
  rw [read]
  simp only [h.shorter, Option.bind_eq_bind, Option.bind_some]

/-- Between parentheses stands one operand. -/
theorem read_enclosed (h : read Expr.assignmentLevel (ts ++ .sign [')'] :: rest) =
      some (g, .sign [')'] :: rest)) (hne : ts ≠ []) :
    read level (enclosed ts ++ rest) = goOn level g rest := by
  have hinner : ReadsFrom (read Expr.assignmentLevel) (ts ++ .sign [')'] :: rest) g
      (.sign [')'] :: rest) :=
    ⟨h, length_lt_append hne⟩
  rw [enclosed, List.cons_append, List.append_assoc, List.singleton_append, read]
  simp only [hinner.shorter_upTo, Option.bind_eq_bind, Option.bind_some]

/-- The last argument stands in front of the closing parenthesis. -/
theorem readSomeArgs_last
    (h : ReadsFrom (read Expr.assignmentLevel) ts g (.sign [')'] :: rest)) :
    readSomeArgs ts = some ([g], rest) := by
  rw [readSomeArgs, h.shorter]
  exact upTo_sign (c := ')') (a := [g])

/-- Behind a comma there are more arguments. -/
theorem readSomeArgs_comma
    (h : ReadsFrom (read Expr.assignmentLevel) ts g (.sign [','] :: us))
    (hargs : readSomeArgs us = some (args, rest)) : readSomeArgs ts = some (g :: args, rest) := by
  rw [readSomeArgs, h.shorter]
  simp only [Option.bind_eq_bind, Option.bind_some, List.head?_cons, if_pos, List.tail_cons, hargs]
  rfl

/-- No operand starts with a closing parenthesis. -/
theorem read_close : read level (.sign [')'] :: rest) = none := by
  rw [read]
  · rfl
  · decide

/-- Where an argument is read there is no closing parenthesis. -/
theorem readArgs_of_readSomeArgs (h : readSomeArgs ts = some (args, rest)) :
    readArgs ts = some (args, rest) := by
  rw [readArgs]
  · exact h
  · rintro more rfl
    rw [readSomeArgs, read_close] at h
    cases h

end

end Grouping

/-! ## How expressions group -/

namespace Expr

open Grouping

mutual

/-- How an expression groups: without its parentheses, and with a negative literal as the negation
of one without a sign. -/
def grouping : Expr → Grouping
  | .int value =>
    if value < 0 then .unary .neg (.int value.toInt.natAbs) else .int value.toInt.natAbs
  | .float text =>
    if startsWithMinus text then .unary .neg (.float (String.ofList text.toList.tail))
    else .float text
  | .bool value => .bool value
  | .ident name => .ident name
  | .unary op e => .unary op e.grouping
  | .binary op l r => .binary op l.grouping r.grouping
  | .call callee args => .call callee (groupings args)
  | .paren e => e.grouping
  | .ternary c t f => .ternary c.grouping t.grouping f.grouping

/-- How some expressions group. -/
def groupings : List Expr → List Grouping
  | [] => []
  | e :: rest => e.grouping :: groupings rest

end

/-- The name is an identifier, and not the name of a truth value. -/
def IsIdentifier (name : String) : Prop :=
  isName name.toList = true ∧ name ≠ "true" ∧ name ≠ "false"

instance {name : String} : Decidable (IsIdentifier name) := inferInstanceAs (Decidable (_ ∧ _))

/-- The text is one digit or more, a point, and one digit or more, perhaps with a minus sign in
front of them. -/
def IsDecimal (text : String) : Prop :=
  ∃ whole fraction : List Char, whole ≠ [] ∧ fraction ≠ [] ∧
    (∀ c ∈ whole ++ fraction, c.isDigit = true) ∧
    (text.toList = whole ++ '.' :: fraction ∨ text.toList = '-' :: (whole ++ '.' :: fraction))

/-- All names of the expression are identifiers, and all float literals are decimal numbers. -/
def Plain : Expr → Prop := Spelled IsIdentifier IsDecimal

/-- The precedence that an expression without parentheses around it asks for at its right end. -/
def openLevel : Expr → Nat
  | .binary op _ _ => rightLevel op
  | .ternary .. => ternaryLevel
  | _ => unaryLevel

/-- The expression is read from its tokens wherever nothing that follows belongs to it. -/
def ReadsBack (e : Expr) : Prop :=
  ∀ level rest, level ≤ e.precedence → tightness rest < e.openLevel →
    rest.head? ≠ some (.sign ['(']) → read level (e.tokens ++ rest) = goOn level e.grouping rest

section
variable {e : Expr} {op : UnaryOp} {level place : Nat} {rest : List Token}

/-- Every expression binds at least as tightly as an assignment. -/
theorem precedence_pos (e : Expr) : assignmentLevel ≤ e.precedence := by
  cases e with
  | binary op =>
    have hop : 1 ≤ op.precedence := by cases op <;> decide
    exact hop
  | int value => rw [precedence]; split <;> decide
  | float text => rw [precedence]; split <;> decide
  | _ => exact Nat.succ_le_succ (Nat.zero_le _)

/-- Every expression asks for some precedence at its right end. -/
theorem openLevel_pos (e : Expr) : 0 < e.openLevel := by
  cases e with
  | binary op =>
    have hop : 0 < rightLevel op := by cases op <;> decide
    exact hop
  | _ => exact Nat.succ_pos _

/-- What binds less tightly than a place asks for is not a part of the expression there. Neither is
what binds just as tightly, unless it groups to the right. -/
theorem tightness_lt_openLevel (h : place ≤ e.precedence)
    (ht : tightness rest < place ∨ tightness rest ≤ place ∧ ternaryLevel < place) :
    tightness rest < e.openLevel := by
  have hunary := tightness_lt rest
  cases e with
  | binary op l r =>
    have h : place ≤ op.precedence := h
    cases op <;> simp_all [openLevel, rightLevel, BinaryOp.precedence, ternaryLevel] <;> omega
  | ternary =>
    have h : place ≤ ternaryLevel := h
    simp only [openLevel, ternaryLevel] at *
    omega
  | _ => exact hunary

namespace ReadsBack

variable (h : e.ReadsBack)
include h

/-- An expression between parentheses is read as the expression. -/
theorem enclosed : read level (Token.enclosed e.tokens ++ rest) = goOn level e.grouping rest := by
  have hclose : tightness (.sign [')'] :: rest) = 0 := rfl
  refine read_enclosed ?_ e.tokens_ne_nil
  rw [h _ _ e.precedence_pos (hclose ▸ e.openLevel_pos) (by simp)]
  exact goOn_of_tightness (hclose ▸ Nat.one_pos)

/-- The expression is read at a place that it may have parentheses for. -/
theorem placed (place : Nat) (hlevel : level ≤ place)
    (ht : tightness rest < place ∨ tightness rest ≤ place ∧ ternaryLevel < place)
    (hrest : rest.head? ≠ some (.sign ['('])) :
    read level (placedTokens place e e.tokens ++ rest) = goOn level e.grouping rest := by
  rw [placedTokens]
  split
  · exact h.enclosed
  · next hplace =>
    have hplace := Nat.le_of_not_lt hplace
    exact h _ _ (Nat.le_trans hlevel hplace) (tightness_lt_openLevel hplace ht) hrest

/-- What is behind the place binds less tightly. -/
theorem last (place : Nat) (ht : tightness rest < place) (hrest : rest.head? ≠ some (.sign ['('])) :
    ReadsFrom (read place) (placedTokens place e e.tokens ++ rest) e.grouping rest := by
  refine ⟨?_, length_lt_append (placedTokens_ne_nil place e)⟩
  rw [h.placed place (Nat.le_refl _) (.inl ht) hrest, goOn_of_tightness ht]

/-- The operand of an operator of one operand is read as it groups. -/
theorem operand (hrest : rest.head? ≠ some (.sign ['('])) :
    ReadsFrom (read unaryLevel) (operandTokens op e e.tokens ++ rest) e.grouping rest := by
  refine ⟨?_, length_lt_append (operandTokens_ne_nil op e)⟩
  rw [operandTokens]
  split
  · rw [h.enclosed, goOn_of_tightness (tightness_lt rest)]
  · exact (h.last unaryLevel (tightness_lt rest) hrest).1

end ReadsBack

/-! ## Literals and names -/

/-- A number is not a name. -/
theorem ofWord_number {text : List Char} (h : isNumber text = true) : ofWord text =
    if text.all Char.isDigit then .int (Nat.ofDigitChars 10 text 0)
    else .float (String.ofList text) := by
  obtain ⟨c, t, rfl, hc⟩ := exists_cons_of_isNumber h
  have hstart := not_isNameStart hc
  have hname : isName (c :: t) = false := by rw [isName, hstart, Bool.false_and]
  have hword {s : String} (hs : isName s.toList = true) : c :: t ≠ s.toList := by
    rintro heq
    rw [← heq, hname] at hs
    cases hs
  rw [ofWord, if_neg (hword (by decide)), if_neg (hword (by decide)), hname]
  rfl

/-- The digits of a number stand for the number. -/
theorem ofWord_digits (n : Nat) : ofWord (Nat.toDigits 10 n) = .int n := by
  have hall : (Nat.toDigits 10 n).all Char.isDigit = true :=
    List.all_eq_true.2 fun _ => Nat.isDigit_of_mem_toDigits (by omega) (by omega)
  rw [ofWord_number (isNumber_toDigits n), if_pos hall, Nat.ofDigitChars_ten_toDigits]

/-- An identifier stands for itself. -/
theorem ofWord_identifier {name : String} (h : IsIdentifier name) :
    ofWord name.toList = .ident name := by
  obtain ⟨hname, htrue, hfalse⟩ := h
  rw [ofWord, if_neg (mt String.toList_inj.1 htrue), if_neg (mt String.toList_inj.1 hfalse),
    if_pos hname, String.ofList_toList]

/-- Digits with a point in the middle are a number, and not an integer. -/
theorem decimal {whole fraction : List Char} (hwhole : whole ≠ [])
    (hdigits : ∀ c ∈ whole ++ fraction, c.isDigit = true) :
    isNumber (whole ++ '.' :: fraction) = true ∧
      (whole ++ '.' :: fraction).all Char.isDigit = false := by
  have hpoint : ('.').isDigit = false := rfl
  obtain ⟨c, w, rfl⟩ := List.exists_cons_of_ne_nil hwhole
  constructor
  · have hrest : (takeWord true c (w ++ '.' :: fraction)).2 = [] := by
      refine takeWord_all fun d hd => ?_
      rcases List.mem_append.1 hd with hd | hd
      · have hdigit := hdigits d (List.mem_append_left _ (List.mem_cons_of_mem c hd))
        exact .inl (by simp [isNameChar, Char.isAlphanum, hdigit])
      · rcases List.mem_cons.1 hd with rfl | hd
        · exact .inr ⟨rfl, rfl⟩
        · have hdigit := hdigits d (List.mem_append_right _ hd)
          exact .inl (by simp [isNameChar, Char.isAlphanum, hdigit])
    have hc : c.isDigit = true := hdigits c List.mem_cons_self
    rw [List.cons_append, isNumber, startsNumber, hc, hrest]
    rfl
  · rw [List.all_append, List.all_cons, List.all_cons, hpoint, Bool.false_and, Bool.and_false]

/-- A decimal number is a number. -/
theorem isNumeral_of_isDecimal {text : String} (h : IsDecimal text) :
    isNumeral text.toList = true := by
  obtain ⟨whole, fraction, hwhole, -, hdigits, htext | htext⟩ := h
  · rw [htext]
    exact isNumeral_of_isNumber (decimal hwhole hdigits).1
  · rw [htext]
    exact (decimal hwhole hdigits).1

/-- A plain expression is clean. -/
theorem Plain.clean (h : e.Plain) : e.Clean :=
  h.mono (fun _ h => h.1) fun _ => isNumeral_of_isDecimal

/-- A negative literal is read as a negation. -/
theorem read_negative {text : List Char} (hrest : rest.head? ≠ some (.sign ['('])) :
    read level (.sign ['-'] :: .word text :: rest) =
      goOn level (.unary .neg (ofWord text)) rest := by
  refine read_unary .neg ⟨?_, Nat.lt_succ_self _⟩
  rw [read_word hrest, goOn_of_tightness (tightness_lt rest)]

/-- An integer is read as it groups, which is with its sign as an operator. -/
theorem readsBack_int (value : Int64) : (Expr.int value).ReadsBack := by
  intro level rest _ _ hrest
  have hsign : value < 0 ↔ value.toInt < 0 := Int64.lt_iff_toInt_lt
  rw [tokens, grouping, Json.toList_toString]
  cases hvalue : value.toInt with
  | ofNat n =>
    have hpos : ¬ value < 0 := by
      rw [hsign, hvalue]
      exact Int.not_lt.2 (Int.natCast_nonneg n)
    rw [if_neg hpos]
    simp only [numeral_of_isNumber (isNumber_toDigits n)]
    rw [List.singleton_append, read_word hrest, ofWord_digits]
    rfl
  | negSucc n =>
    have hneg : value < 0 := by
      rw [hsign, hvalue]
      exact Int.negSucc_lt_zero n
    rw [if_pos hneg]
    simp only [numeral, List.cons_append, List.nil_append]
    rw [read_negative hrest, ofWord_digits]
    rfl

/-- A float literal is read as it groups. -/
theorem readsBack_float {text : String} (h : IsDecimal text) : (Expr.float text).ReadsBack := by
  intro level rest _ _ hrest
  obtain ⟨whole, fraction, hwhole, -, hdigits, htext⟩ := h
  obtain ⟨hnumber, hall⟩ := decimal hwhole hdigits
  rw [tokens, grouping]
  rcases htext with htext | htext
  · rw [← htext] at hnumber hall
    have hpos : startsWithMinus text = false := by
      obtain ⟨c, t, ht, hc⟩ := exists_cons_of_isNumber hnumber
      rw [startsWithMinus, ht]
      refine decide_eq_false fun hhead => ?_
      obtain rfl : c = '-' := Option.some.inj hhead
      cases hc
    rw [hpos, numeral_of_isNumber hnumber, List.singleton_append, read_word hrest,
      ofWord_number hnumber, hall, String.ofList_toList]
    rfl
  · have hneg : startsWithMinus text = true := by
      rw [startsWithMinus, htext]
      rfl
    rw [hneg, if_pos rfl, htext, numeral, List.cons_append, List.singleton_append,
      read_negative hrest, ofWord_number hnumber, hall]
    rfl

/-! ## Reading back -/

/-- No operator of two operands is an opening parenthesis. -/
theorem text_ne_open (op : BinaryOp) (rest : List Token) :
    (Token.sign op.text.toList :: rest).head? ≠ some (.sign ['(']) := by
  have hop : Token.sign op.text.toList ≠ .sign ['('] := by cases op <;> decide
  simpa using hop

mutual

/-- A plain expression is read as it groups, by induction on the expression. -/
theorem readsBack : ∀ {e : Expr}, e.Plain → e.ReadsBack
  | .int value, _ => readsBack_int value
  | .float _, h => readsBack_float h
  | .bool true, _ => fun _ _ _ _ hrest => read_word hrest
  | .bool false, _ => fun _ _ _ _ hrest => read_word hrest
  | .ident name, h => by
    intro level rest _ _ hrest
    rw [tokens, grouping, ← ofWord_identifier h]
    exact read_word hrest
  | .unary op e, h => by
    intro level rest _ _ hrest
    exact read_unary op ((readsBack (e := e) h).operand hrest)
  | .binary op l r, h => by
    intro level rest hlevel ht hrest
    -- The operator ends the left operand, and what ends the whole ends the right one.
    have hop : op.precedence ≤ leftLevel op ∧ (op.precedence < leftLevel op ∨
        op.precedence ≤ leftLevel op ∧ ternaryLevel < leftLevel op) := by
      cases op <;> decide
    rw [tokens, List.append_assoc, List.cons_append,
      (readsBack h.1).placed _ (Nat.le_trans hlevel hop.1) ((tightness_binary op _).symm ▸ hop.2)
        (text_ne_open op _),
      goOn_binary op hlevel ((readsBack h.2).last (rightLevel op) ht hrest)]
    rfl
  | .call callee args, h => by
    intro level rest _ _ hrest
    have hargs : readArgs (argTokens args ++ .sign [')'] :: rest) =
        some (groupings args, rest) := by
      by_cases hne : args = []
      · rw [hne, argTokens, List.nil_append, readArgs]
        rfl
      · exact readArgs_of_readSomeArgs (readSomeArgs_argTokens hne h.2 rest)
    have hlt : rest.length < (argTokens args ++ .sign [')'] :: rest).length := by
      simp only [List.length_append, List.length_cons]
      omega
    rw [tokens, List.cons_append, Token.enclosed, List.cons_append, List.append_assoc,
      List.singleton_append, read_call ⟨hargs, hlt⟩, String.ofList_toList]
    rfl
  | .paren e, h => fun _ _ _ _ _ => (readsBack (e := e) h).enclosed
  | .ternary c t f, h => by
    intro level rest hlevel ht hrest
    have hcond : tightness (.sign ['?'] :: (placedTokens assignmentLevel t t.tokens
        ++ .sign [':'] :: (placedTokens ternaryLevel f f.tokens ++ rest))) < ternaryLevel + 1 :=
      Nat.lt_succ_self _
    have htrue : ReadsFrom (Grouping.read assignmentLevel) (placedTokens assignmentLevel t t.tokens
        ++ .sign [':'] :: (placedTokens ternaryLevel f f.tokens ++ rest)) t.grouping
        (.sign [':'] :: (placedTokens ternaryLevel f f.tokens ++ rest)) :=
      (readsBack h.2.1).last assignmentLevel Nat.one_pos (by simp)
    rw [tokens]
    simp only [List.append_assoc, List.cons_append]
    rw [(readsBack h.1).placed (ternaryLevel + 1) (Nat.le_succ_of_le hlevel) (.inl hcond)
      (by simp), goOn_ternary hlevel htrue ((readsBack h.2.2).last ternaryLevel ht hrest)]
    rfl

/-- Arguments are read one by one. -/
theorem readSomeArgs_argTokens : ∀ {es : List Expr}, es ≠ [] →
    SpelledAll IsIdentifier IsDecimal es → ∀ rest : List Token,
      readSomeArgs (argTokens es ++ .sign [')'] :: rest) = some (groupings es, rest)
  | [], hne, _, _ => absurd rfl hne
  | [e], _, h, rest =>
    readSomeArgs_last ((readsBack h.1).last assignmentLevel Nat.one_pos (by simp))
  | e :: e' :: es, _, h, rest => by
    have hargs : argTokens (e :: e' :: es) =
        placedTokens assignmentLevel e e.tokens ++ .sign [','] :: argTokens (e' :: es) := rfl
    rw [hargs, List.append_assoc, List.cons_append]
    exact readSomeArgs_comma ((readsBack h.1).last assignmentLevel Nat.one_pos (by simp))
      (readSomeArgs_argTokens (List.cons_ne_nil e' es) h.2 rest)

end

/-- The text of an expression is read as the expression groups. -/
theorem ofText?_render (h : e.Plain) : ofText? e.render = some e.grouping := by
  have hlex := lexes_render h.clean [] rfl
  have hread := readsBack h assignmentLevel [] e.precedence_pos e.openLevel_pos (by simp)
  rw [List.append_nil] at hlex hread
  rw [ofText?, hlex, lex, List.append_nil, hread, goOn_of_tightness Nat.one_pos]

/-! ## Parentheses -/

mutual

/-- One pair of parentheses in an expression is taken away. -/
inductive Unwraps : Expr → Expr → Prop
  | here (e : Expr) : Unwraps (.paren e) e
  | unary {op : UnaryOp} {e e' : Expr} : Unwraps e e' → Unwraps (.unary op e) (.unary op e')
  | left {op : BinaryOp} {l l' r : Expr} : Unwraps l l' → Unwraps (.binary op l r) (.binary op l' r)
  | right {op : BinaryOp} {l r r' : Expr} :
    Unwraps r r' → Unwraps (.binary op l r) (.binary op l r')
  | args {callee : String} {args args' : List Expr} :
    UnwrapsOne args args' → Unwraps (.call callee args) (.call callee args')
  | paren {e e' : Expr} : Unwraps e e' → Unwraps (.paren e) (.paren e')
  | cond {c c' t f : Expr} : Unwraps c c' → Unwraps (.ternary c t f) (.ternary c' t f)
  | onTrue {c t t' f : Expr} : Unwraps t t' → Unwraps (.ternary c t f) (.ternary c t' f)
  | onFalse {c t f f' : Expr} : Unwraps f f' → Unwraps (.ternary c t f) (.ternary c t f')

/-- One pair of parentheses in some expressions is taken away. -/
inductive UnwrapsOne : List Expr → List Expr → Prop
  | head {e e' : Expr} {rest : List Expr} : Unwraps e e' → UnwrapsOne (e :: rest) (e' :: rest)
  | tail {e : Expr} {rest rest' : List Expr} :
    UnwrapsOne rest rest' → UnwrapsOne (e :: rest) (e :: rest')

end

mutual

/-- Without a pair of parentheses an expression groups as before. -/
theorem Unwraps.grouping_eq : ∀ {e e' : Expr}, Unwraps e e' → e'.grouping = e.grouping
  | _, _, .here _ => rfl
  | .unary op _, _, .unary h => congrArg (Grouping.unary op) h.grouping_eq
  | .binary op _ r, _, .left h => congrArg (Grouping.binary op · r.grouping) h.grouping_eq
  | .binary op l _, _, .right h => congrArg (Grouping.binary op l.grouping) h.grouping_eq
  | .call callee _, _, .args h => congrArg (Grouping.call callee) h.groupings_eq
  | .paren _, _, .paren h => h.grouping_eq
  | .ternary _ t f, _, .cond h => congrArg (Grouping.ternary · t.grouping f.grouping) h.grouping_eq
  | .ternary c _ f, _, .onTrue h =>
    congrArg (Grouping.ternary c.grouping · f.grouping) h.grouping_eq
  | .ternary c t _, _, .onFalse h =>
    congrArg (Grouping.ternary c.grouping t.grouping) h.grouping_eq

/-- Leaving out the parentheses of one of some expressions changes no grouping. -/
theorem UnwrapsOne.groupings_eq : ∀ {es es' : List Expr}, UnwrapsOne es es' →
    groupings es' = groupings es
  | _ :: rest, _, .head h => congrArg (· :: groupings rest) h.grouping_eq
  | e :: _, _, .tail h => congrArg (e.grouping :: ·) h.groupings_eq

end

mutual

/-- Without a pair of parentheses the names and the literals are those of before. -/
theorem Unwraps.spelled {name float : String → Prop} : ∀ {e e' : Expr}, Unwraps e e' →
    e.Spelled name float → e'.Spelled name float
  | _, _, .here _, hs => hs
  | _, _, .unary (e := e) h, hs => h.spelled (e := e) hs
  | _, _, .left h, hs => ⟨h.spelled hs.1, hs.2⟩
  | _, _, .right h, hs => ⟨hs.1, h.spelled hs.2⟩
  | _, _, .args h, hs => ⟨hs.1, h.spelledAll hs.2⟩
  | _, _, .paren (e := e) h, hs => h.spelled (e := e) hs
  | _, _, .cond h, hs => ⟨h.spelled hs.1, hs.2⟩
  | _, _, .onTrue h, hs => ⟨hs.1, h.spelled hs.2.1, hs.2.2⟩
  | _, _, .onFalse h, hs => ⟨hs.1, hs.2.1, h.spelled hs.2.2⟩

/-- Leaving out the parentheses of one of some expressions changes no names and no float
literals. -/
theorem UnwrapsOne.spelledAll {name float : String → Prop} : ∀ {es es' : List Expr},
    UnwrapsOne es es' → SpelledAll name float es → SpelledAll name float es'
  | _, _, .head h, hs => ⟨h.spelled hs.1, hs.2⟩
  | _, _, .tail h, hs => ⟨hs.1, h.spelledAll hs.2⟩

end

/-- The text of an expression is unambiguous: no two minus signs in it are next to each other, and
expressions with the same text group alike. So a pair of parentheses that is taken away does not
change how the text is read. -/
theorem render_unambiguous {e₁ e₂ : Expr} (h₁ : e₁.Plain) (h₂ : e₂.Plain) :
    ¬ DoubleMinus e₁.render.toList ∧ (e₁.render = e₂.render → e₁.grouping = e₂.grouping) ∧
      ofText? e₁.render = some e₁.grouping ∧
      ∀ e, Unwraps e₁ e → e.grouping = e₁.grouping ∧ ofText? e.render = some e₁.grouping := by
  refine ⟨not_doubleMinus_render h₁.clean, fun htext => ?_, ofText?_render h₁, fun e h => ?_⟩
  · have hread := ofText?_render h₂
    rw [← htext, ofText?_render h₁] at hread
    exact Option.some.inj hread
  · have he : e.Plain := h.spelled h₁
    rw [ofText?_render he, h.grouping_eq]
    exact ⟨rfl, rfl⟩

/-- The parentheses in `x - -(-1.5)` are in the text, whether or not the expression has them. -/
theorem render_unambiguous_negated :
    let e (operand : Expr) := Expr.binary .sub (.ident "x") (.unary .neg operand)
    (e (.paren (.float "-1.5"))).render = (e (.float "-1.5")).render ∧
      (e (.paren (.float "-1.5"))).grouping = (e (.float "-1.5")).grouping ∧
      ofText? (e (.float "-1.5")).render = some (e (.paren (.float "-1.5"))).grouping := by
  intro e
  have hx : IsIdentifier "x" := by decide
  have hfloat : IsDecimal "-1.5" := ⟨['1'], ['5'], by decide, by decide, by simp, .inr rfl⟩
  have htext : (e (.paren (.float "-1.5"))).render = (e (.float "-1.5")).render := rfl
  have h₁ : (e (.paren (.float "-1.5"))).Plain := ⟨hx, hfloat⟩
  have h₂ : (e (.float "-1.5")).Plain := ⟨hx, hfloat⟩
  obtain ⟨-, hsame, -, hunwrap⟩ := render_unambiguous h₁ h₂
  exact ⟨htext, hsame htext, (hunwrap _ (.right (.unary (.here _)))).2⟩

end

end Expr

end ShaderShrink

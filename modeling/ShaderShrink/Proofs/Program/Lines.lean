import ShaderShrink.Proofs.Program.Phrase

/-!
# The tokens of programs

A program is readable if its names are names other than keywords, its types are such names with
blanks between them, and its float literals are numbers. The tokens of its text are then those of
its declarations one after the other (`Program.lex_render`): the ends of lines keep words apart, and
indentation leaves nothing behind.
-/

namespace ShaderShrink

open Token

/-- The type is made of names other than keywords, with blanks between them. -/
def IsType (ty : String) : Prop :=
  ∃ words : List String, words ≠ [] ∧ (∀ word ∈ words, IsUnreserved word) ∧
    ty = " ".intercalate words

/-- A name and its type are readable. -/
def IsTyped (ty name : String) : Prop := IsType ty ∧ IsUnreserved name

/-- The tokens of a name and its type. -/
def typedTokens (ty name : String) : List Token := lex ty.toList ++ [.word name.toList]

namespace Token

/-- Some tokens between braces. -/
def braces (ts : List Token) : List Token := .sign ['\x7b'] :: (ts ++ [.sign ['\x7d']])

/-- The lines give the tokens, whatever follows. -/
def LexesLines (text : String) (ts : List Token) : Prop :=
  ∀ rest, lex (text.toList ++ rest) = ts ++ lex rest

section
variable {ty name : String} {ts us : List Token} {words : List String}

/-- Lines that follow each other give their tokens one after the other. -/
theorem LexesLines.append {s t : String} (hs : LexesLines s ts) (ht : LexesLines t us) :
    LexesLines (s ++ t) (ts ++ us) := by
  intro rest
  rw [String.toList_append, List.append_assoc, hs, ht, List.append_assoc]

/-- A keyword is one token. -/
theorem lexes_keyword {s : String} (h : s.toList ∈ keywords) : Lexes s.toList [keyword s] := by
  refine lexes_word ?_
  revert h
  generalize s.toList = word
  revert word
  decide

/-- A name is one token. -/
theorem lexes_name (h : IsUnreserved name) : Lexes name.toList [.word name.toList] :=
  lexes_word (Bool.or_eq_true_iff.2 (.inl h.1))

/-- Words with blanks between them are one token each. -/
theorem lexes_words (hne : words ≠ []) (h : ∀ word ∈ words, IsUnreserved word) :
    Lexes (" ".intercalate words).toList (words.map fun word => .word word.toList) := by
  induction words with
  | nil => exact absurd rfl hne
  | cons word words ih =>
    obtain ⟨hword, hwords⟩ := List.forall_mem_cons.1 h
    cases words with
    | nil => simpa using lexes_name hword
    | cons word' words =>
      simpa [String.intercalate_cons_cons] using
        (lexes_name hword).blank (ih (List.cons_ne_nil _ _) hwords)

/-- A type gives words. -/
theorem lex_type (hne : words ≠ []) (h : ∀ word ∈ words, IsUnreserved word) :
    lex (" ".intercalate words).toList = words.map fun word => .word word.toList := by
  have hlex := lexes_words hne h [] rfl
  rwa [lex, List.append_nil, List.append_nil] at hlex

/-- A name with its type is words, and the first one is no keyword. -/
theorem exists_words (h : IsTyped ty name) : ∃ first types,
    IsUnreserved first ∧ ty = " ".intercalate (first :: types) ∧
      typedTokens ty name = (first :: (types ++ [name])).map fun word => .word word.toList := by
  obtain ⟨⟨words, hne, hwords, rfl⟩, -⟩ := h
  rw [typedTokens, lex_type hne hwords]
  obtain ⟨first, types, rfl⟩ := List.exists_cons_of_ne_nil hne
  exact ⟨first, types, hwords first List.mem_cons_self, rfl, by simp⟩

/-- A type and a name give their tokens. -/
theorem lexes_typed (h : IsTyped ty name) :
    Lexes (ty ++ " " ++ name).toList (typedTokens ty name) := by
  obtain ⟨⟨words, hne, hwords, rfl⟩, hname⟩ := h
  rw [typedTokens, lex_type hne hwords]
  simpa using (lexes_words hne hwords).blank (lexes_name hname)

end

end Token

namespace Stmt

/-- The tokens of the initial value of a variable. -/
def initTokens : Option Expr → List Token
  | none => []
  | some e => .sign ['='] :: e.tokens

/-- The tokens of the declaration of a variable. -/
def declarationTokens (ty name : String) (init : Option Expr) : List Token :=
  typedTokens ty name ++ (initTokens init ++ [.sign [';']])

mutual

/-- The tokens of a statement. -/
def tokens : Stmt → List Token
  | .block body => braces (tokensAll body)
  | .expr e => e.tokens ++ [.sign [';']]
  | .var ty name init => declarationTokens ty name init
  | .ifElse cond onTrue onFalse =>
    keyword "if" :: (enclosed cond.tokens
      ++ ((if onFalse.isSome ∧ onTrue.hasDanglingIf then braces onTrue.tokens else onTrue.tokens)
        ++ tokensElse onFalse))
  | .whileLoop cond body => keyword "while" :: (enclosed cond.tokens ++ body.tokens)
  | .ret none => [keyword "return", .sign [';']]
  | .ret (some e) => keyword "return" :: (e.tokens ++ [.sign [';']])
  | .discard => [keyword "discard", .sign [';']]
  | .empty => [.sign [';']]

/-- The tokens of an `else` with its branch, if there is one. -/
def tokensElse : Option Stmt → List Token
  | none => []
  | some s => keyword "else" :: s.tokens

/-- The tokens of some statements. -/
def tokensAll : List Stmt → List Token
  | [] => []
  | s :: rest => s.tokens ++ tokensAll rest

end

mutual

/-- Names, types and expressions of a statement are readable. -/
def Readable : Stmt → Prop
  | .block body => ReadableAll body
  | .expr e => e.Readable
  | .var ty name init => IsTyped ty name ∧ ∀ e ∈ init, e.Readable
  | .ifElse cond onTrue onFalse => cond.Readable ∧ onTrue.Readable ∧ ReadableOption onFalse
  | .whileLoop cond body => cond.Readable ∧ body.Readable
  | .ret value => ∀ e ∈ value, e.Readable
  | .discard | .empty => True

/-- Names, types and expressions of a statement that may be absent are readable. -/
def ReadableOption : Option Stmt → Prop
  | none => True
  | some s => s.Readable

/-- Names, types and expressions of some statements are readable. -/
def ReadableAll : List Stmt → Prop
  | [] => True
  | s :: rest => s.Readable ∧ ReadableAll rest

end

section
variable {ty name text : String} {init : Option Expr} {ts us : List Token} {level : Nat}

/-! ## Lines -/

/-- Indentation leaves no tokens behind. -/
theorem lex_pad (level : Nat) (rest : List Char) : lex ((pad level).toList ++ rest) = lex rest := by
  rw [pad, String.toList_ofList]
  induction 4 * level with
  | zero => rfl
  | succ n ih => rw [List.replicate_succ, List.cons_append, lex_blank rfl, ih]

/-- A line gives the tokens of its text. -/
theorem lexesLines_line (level : Nat) (h : Lexes text.toList ts) :
    LexesLines (line level text) ts := by
  intro rest
  simp only [line, String.toList_append, List.append_assoc]
  rw [lex_pad, h _ rfl]
  exact congrArg (ts ++ ·) (lex_blank rfl)

/-- A declaration of a variable gives its tokens. -/
theorem lexes_declarationText (h : IsTyped ty name) (hinit : ∀ e ∈ init, e.Readable) :
    Lexes (declarationText ty name init).toList (declarationTokens ty name init) := by
  have htyped := lexes_typed h
  cases init with
  | none =>
    simpa [declarationText, declarationTokens, initTokens] using htyped.semicolon
  | some e =>
    have he := Expr.lexes_render (hinit e rfl).clean
    have hset := htyped.between _ (Expr.lex_binaryOp .assign) he
    simpa [declarationText, declarationTokens, initTokens, BinaryOp.text] using hset.semicolon

/-- A keyword with a condition gives its tokens. -/
theorem lexes_condition {cond : Expr} (keyword : String) (hkeyword : keyword.toList ∈ keywords)
    (h : cond.Readable) :
    Lexes (keyword ++ " " ++ Expr.parenthesize cond.render).toList
      (Token.keyword keyword :: enclosed cond.tokens) := by
  have hcond := (lexes_keyword hkeyword).blank (Expr.lexes_render h.clean).parenthesized
  simpa [Expr.toList_parenthesize, enclosed] using hcond

/-! ## Statements -/

/-- Between lines with braces. -/
theorem lexesLines_braces (outer : Nat) (h : LexesLines text ts) :
    LexesLines (line outer "\x7b" ++ text ++ line outer "\x7d") (braces ts) := by
  have hopen : Lexes ("\x7b").toList [.sign ['\x7b']] := fun _ _ => lex_mark (by decide)
  have hclose : Lexes ("\x7d").toList [.sign ['\x7d']] := fun _ _ => lex_mark (by decide)
  exact ((lexesLines_line outer hopen).append h).append (lexesLines_line outer hclose)

/-- A keyword on a line of its own gives two tokens. -/
theorem lexes_word_semicolon (word : String) (h : word.toList ∈ keywords) :
    Lexes (word ++ ";").toList [keyword word, .sign [';']] := by
  simpa using (lexes_keyword h).semicolon

/-- An expression on a line of its own gives its tokens and the semicolon. -/
theorem lexes_expr_semicolon {e : Expr} (h : e.Readable) :
    Lexes (e.render ++ ";").toList (e.tokens ++ [.sign [';']]) := by
  simpa using (Expr.lexes_render h.clean).semicolon

mutual

/-- The tokens of a statement are those of its lines. -/
theorem lexesLines_render : ∀ {s : Stmt}, s.Readable → ∀ level : Nat,
    LexesLines (s.render level) s.tokens
  | .block body, h, level =>
    lexesLines_braces level (lexesLines_renderAll (l := body) h (level + 1))
  | .expr e, h, level => lexesLines_line level (lexes_expr_semicolon (e := e) h)
  | .var ty name init, h, level => lexesLines_line level (lexes_declarationText h.1 h.2)
  | .ifElse cond onTrue onFalse, ⟨hcond, htrue, hfalse⟩, level => by
    have hif := lexes_condition "if" (by decide) hcond
    rw [render, tokens, ← List.cons_append, ← List.append_assoc]
    refine ((lexesLines_line level hif).append ?_).append (lexesLines_renderElse hfalse level)
    split
    · exact lexesLines_braces level (lexesLines_render htrue (level + 1))
    · exact lexesLines_render htrue (level + 1)
  | .whileLoop cond body, h, level => by
    have hwhile := lexes_condition "while" (by decide) h.1
    exact (lexesLines_line level hwhile).append (lexesLines_render h.2 (level + 1))
  | .ret none, _, level => lexesLines_line level (lexes_word_semicolon "return" (by decide))
  | .ret (some e), h, level => by
    have hret := (lexes_keyword (s := "return") (by decide)).blank
      (lexes_expr_semicolon (h e rfl))
    refine lexesLines_line level ?_
    simpa [tokens] using hret
  | .discard, _, level => lexesLines_line level (lexes_word_semicolon "discard" (by decide))
  | .empty, _, level => lexesLines_line level fun _ _ => lex_mark (by decide)

/-- The second branch of an `if` gives its tokens. -/
theorem lexesLines_renderElse : ∀ {s : Option Stmt}, ReadableOption s → ∀ level : Nat,
    LexesLines (renderElse level s) (tokensElse s)
  | none, _, _ => fun _ => rfl
  | some s, h, level =>
    (lexesLines_line level (lexes_keyword (s := "else") (by decide))).append
      (lexesLines_render (s := s) h (level + 1))

/-- The lines of some statements give their tokens. -/
theorem lexesLines_renderAll : ∀ {l : List Stmt}, ReadableAll l → ∀ level : Nat,
    LexesLines (renderAll level l) (tokensAll l)
  | [], _, _ => fun _ => rfl
  | _ :: _, h, level => (lexesLines_render h.1 level).append (lexesLines_renderAll h.2 level)

end

end

end Stmt

/-! ## Declarations and programs -/

/-- The tokens of some parameters. -/
def Param.tokens (params : List Param) : List Token :=
  List.intercalate [.sign [',']] (params.map fun p => typedTokens p.ty p.name)

namespace Decl

/-- The tokens of a declaration. -/
def tokens : Decl → List Token
  | .global ty name init => Stmt.declarationTokens ty name init
  | .function returnType name params body =>
    typedTokens returnType name ++ (enclosed (Param.tokens params) ++ braces (Stmt.tokensAll body))

/-- Names, types and expressions of a declaration are readable. -/
def Readable : Decl → Prop
  | .global ty name init => IsTyped ty name ∧ ∀ e ∈ init, e.Readable
  | .function returnType name params body =>
    IsTyped returnType name ∧ (∀ p ∈ params, IsTyped p.ty p.name) ∧ Stmt.ReadableAll body

/-- Parameters give their tokens, with the commas between them. -/
theorem lexes_params {params : List Param} (h : ∀ p ∈ params, IsTyped p.ty p.name) :
    Lexes (", ".intercalate (params.map Param.render)).toList (Param.tokens params) := by
  induction params with
  | nil => exact fun _ _ => rfl
  | cons p params ih =>
    obtain ⟨hp, hparams⟩ := List.forall_mem_cons.1 h
    have hfirst : Lexes p.render.toList (typedTokens p.ty p.name) := lexes_typed hp
    cases params with
    | nil => simpa [Param.tokens] using hfirst
    | cons p' params =>
      simpa [Param.tokens, String.intercalate_cons_cons] using hfirst.comma (ih hparams)

/-- The lines of a declaration give its tokens. -/
theorem lexesLines_render {d : Decl} (h : d.Readable) : LexesLines d.render d.tokens := by
  cases d with
  | global ty name init => exact Stmt.lexesLines_line 0 (Stmt.lexes_declarationText h.1 h.2)
  | function returnType name params body =>
    obtain ⟨htyped, hparams, hbody⟩ := h
    have hhead : Lexes (returnType ++ " " ++ name
        ++ Expr.parenthesize (", ".intercalate (params.map Param.render))).toList
        (typedTokens returnType name ++ enclosed (Param.tokens params)) := by
      intro rest hrest
      rw [String.toList_append, Expr.toList_parenthesize, List.append_assoc,
        lexes_typed htyped _ rfl, (lexes_params hparams).parenthesized _ hrest]
      exact (List.append_assoc ..).symm
    have hbody := Stmt.lexesLines_braces 0 (Stmt.lexesLines_renderAll hbody 1)
    have hlines := (Stmt.lexesLines_line 0 hhead).append hbody
    simpa [render, tokens, String.append_assoc] using hlines

end Decl

namespace Program

/-- The tokens of a program. -/
def tokens (p : Program) : List Token := p.declarations.flatMap Decl.tokens

/-- Names, types and expressions of a program are readable. -/
def Readable (p : Program) : Prop := ∀ d ∈ p.declarations, d.Readable

/-- The tokens of the text of a program are those of its declarations. -/
theorem lex_render {p : Program} (h : p.Readable) : lex p.render.toList = p.tokens := by
  obtain ⟨declarations⟩ := p
  have hlines : LexesLines (String.join (declarations.map Decl.render))
      (declarations.flatMap Decl.tokens) := by
    induction declarations with
    | nil => exact fun _ => rfl
    | cons d ds ih =>
      obtain ⟨hd, hds⟩ := List.forall_mem_cons.1 h
      rw [List.map_cons, String.join_cons, List.flatMap_cons]
      exact (Decl.lexesLines_render hd).append (ih hds)
  have hlex := hlines []
  rwa [lex, List.append_nil, List.append_nil] at hlex

end Program

end ShaderShrink

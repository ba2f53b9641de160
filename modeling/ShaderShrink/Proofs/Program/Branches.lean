import ShaderShrink.Proofs.Program.Braces
import ShaderShrink.Proofs.Program.Lines

/-!
# Which `if` an `else` belongs to

`Program.ofText?` reads a program from its tokens: an `else` belongs to the nearest `if` in front of
it that can take it. Expressions are kept as their texts (`Program.flat`).

The text of a program is read as the program with braces around branches
(`Program.render_keeps_else`). The induction is on statements: one is read from its tokens whatever
follows, unless it ends in an `if` without an `else` and an `else` follows (`Stmt.readStmt_tokens`).
-/

namespace ShaderShrink

open Token

/-! ## Reading statements -/

namespace Token

/-- The type and the name that some words are: the name is the last one. -/
def typed (words : List String) : Option (String × String) :=
  match words.dropLast, words.getLast? with
  | first :: types, some name => some (" ".intercalate (first :: types), name)
  | _, _ => none

/-- Reads the initial value of a variable, if there is one, up to the end of the line. -/
def readInit (ts : List Token) : Option (Option Expr × List Token) := do
  let (line, rest) ← takeLine ts
  match line with
  | [] => return (none, rest)
  | .sign ['='] :: value => return (some (Expr.ofTokens value), rest)
  | _ => none

/-- Reads a line that is a declaration or an expression. Only a declaration starts with two
words. -/
def readLine (ts : List Token) : Option (Stmt × List Token) :=
  match typed (takeWords ts).1 with
  | some (ty, name) => do
    let (init, rest) ← readInit (takeWords ts).2
    return (.var ty name init, rest)
  | none => do
    let (line, rest) ← takeLine ts
    return (.expr (Expr.ofTokens line), rest)

mutual

/-- Reads a statement, and gives what is behind it. -/
def readStmt (ts : List Token) : Option (Stmt × List Token) :=
  match ts with
  | [] => none
  | t :: rest =>
    if t = .sign ['\x7b'] then do
      let (body, rest) ← readBody rest
      return (.block body, rest)
    else if t = .sign [';'] then some (.empty, rest)
    else if t = keyword "if" then do
      let (cond, ⟨rest, _⟩) ← shorter rest (takeEnclosed rest)
      let (onTrue, ⟨rest, _⟩) ← shorter rest (readStmt rest)
      let (onFalse, rest) ← readElse rest
      return (.ifElse (Expr.ofTokens cond) onTrue onFalse, rest)
    else if t = keyword "while" then do
      let (cond, ⟨rest, _⟩) ← shorter rest (takeEnclosed rest)
      let (body, rest) ← readStmt rest
      return (.whileLoop (Expr.ofTokens cond) body, rest)
    else if t = keyword "return" then do
      let (line, rest) ← takeLine rest
      return (.ret (if line = [] then none else some (Expr.ofTokens line)), rest)
    else if t = keyword "discard" then do
      let rest ← skip ';' rest
      return (.discard, rest)
    else readLine (t :: rest)
termination_by 2 * ts.length

/-- Reads an `else` with its branch if there is one. It belongs to the `if` that was read last. -/
def readElse (ts : List Token) : Option (Option Stmt × List Token) :=
  match ts with
  | [] => some (none, [])
  | t :: rest =>
    if t = keyword "else" then do
      let (s, rest) ← readStmt rest
      return (some s, rest)
    else some (none, t :: rest)
termination_by 2 * ts.length

/-- Reads statements up to the closing brace. -/
def readBody (ts : List Token) : Option (List Stmt × List Token) :=
  match ts with
  | [] => none
  | t :: rest =>
    if t = .sign ['\x7d'] then some ([], rest)
    else do
      let (s, ⟨rest, _⟩) ← shorter (t :: rest) (readStmt (t :: rest))
      let (body, rest) ← readBody rest
      return (s :: body, rest)
termination_by 2 * ts.length + 1
decreasing_by
  · exact Nat.lt_succ_self _
  · simp only [List.length_cons] at *
    omega

end

/-- Reads a parameter. -/
def readParam (ts : List Token) : Option Param :=
  if (takeWords ts).2 = [] then (typed (takeWords ts).1).map fun (ty, name) => ⟨ty, name⟩ else none

/-- Reads parameters with commas between them. -/
def readParams (ts : List Token) : Option (List Param) :=
  if ts = [] then some [] else (ts.splitOn (.sign [','])).mapM readParam

/-- Reads a declaration, and gives what is behind it. -/
def readDecl (ts : List Token) : Option (Decl × List Token) := do
  let (ty, name) ← typed (takeWords ts).1
  match (takeWords ts).2 with
  | .sign ['('] :: rest =>
    let (inner, rest) ← takeClosed 0 rest
    let params ← readParams inner
    let rest ← skip '\x7b' rest
    let (body, rest) ← readBody rest
    return (.function ty name params body, rest)
  | rest =>
    let (init, rest) ← readInit rest
    return (.global ty name init, rest)

/-- Reads declarations up to the end. -/
def readDecls (ts : List Token) : Option (List Decl) :=
  match ts with
  | [] => some []
  | t :: rest => do
    let (d, ⟨rest, _⟩) ← shorter (t :: rest) (readDecl (t :: rest))
    let ds ← readDecls rest
    return d :: ds
termination_by ts.length
decreasing_by assumption

end Token

/-- Reads a program from its text. -/
def Program.ofText? (text : String) : Option Program := (readDecls (lex text.toList)).map Program.mk

/-! ## Names and types -/

namespace Token

section
variable {ts : List Token} {ty name : String}

/-- All words are taken that stand in front of something else. -/
theorem takeWords_words (words : List String) (h : ∀ s, ts.head? ≠ some (.word s)) :
    takeWords ((words.map fun word => .word word.toList) ++ ts) = (words, ts) := by
  induction words with
  | nil =>
    cases ts with
    | nil => rfl
    | cons t ts =>
      cases t with
      | word s => exact absurd rfl (h s)
      | sign => rfl
  | cons first words ih =>
    rw [List.map_cons, List.cons_append, takeWords, ih, String.ofList_toList]

/-- A name is read with its type. -/
theorem typed_takeWords (htyped : IsTyped ty name) (h : ∀ s, ts.head? ≠ some (.word s)) :
    typed (takeWords (typedTokens ty name ++ ts)).1 = some (ty, name) ∧
      (takeWords (typedTokens ty name ++ ts)).2 = ts := by
  obtain ⟨first, types, -, rfl, htokens⟩ := exists_words htyped
  rw [htokens, takeWords_words _ h, ← List.cons_append, typed, List.dropLast_concat,
    List.getLast?_concat]
  exact ⟨rfl, rfl⟩

/-- A single word is not a type with a name. -/
theorem typed_of_length_le {words : List String} (h : words.length ≤ 1) : typed words = none := by
  cases words with
  | nil => rfl
  | cons first words =>
    obtain rfl : words = [] := List.length_eq_zero_iff.1 (Nat.le_zero.1 (Nat.le_of_succ_le_succ h))
    rfl

/-- A type and a name consist of words. -/
theorem exists_word_of_mem (h : IsTyped ty name) {t : Token} (ht : t ∈ typedTokens ty name) :
    ∃ s, t = .word s := by
  obtain ⟨first, types, -, -, htokens⟩ := exists_words h
  rw [htokens] at ht
  obtain ⟨word, -, rfl⟩ := List.mem_map.1 ht
  exact ⟨_, rfl⟩

/-- Words open no parenthesis. -/
theorem closed_of_words (h : ∀ t ∈ ts, ∃ s, t = .word s) : Closed ts := by
  induction ts with
  | nil => exact closed_nil
  | cons t ts ih =>
    obtain ⟨⟨s, rfl⟩, hts⟩ := List.forall_mem_cons.1 h
    exact (closed_singleton (by simp)).append (ih hts)

end

end Token

namespace Stmt

/-! ## Steps of the reader -/

section
variable {ts us vs cond rest : List Token} {text : List Char} {ty name : String} {s : Stmt}
  {f : Option Stmt}

/-- Behind the name of a variable there is no further word. -/
theorem head?_initTokens (init : Option Expr) (rest : List Token) (s : List Char) :
    (initTokens init ++ .sign [';'] :: rest).head? ≠ some (.word s) := by
  cases init <;> simp [initTokens]

/-- The initial value of a variable is read from its tokens. -/
theorem readInit_initTokens {init : Option Expr} (h : ∀ e ∈ init, e.Readable)
    (rest : List Token) :
    readInit (initTokens init ++ .sign [';'] :: rest) = some (init.map Expr.flat, rest) := by
  cases init with
  | none => rfl
  | some e =>
    have he := h e rfl
    have hline : .sign [';'] ∉ initTokens (some e) := by
      simpa [initTokens] using (Expr.phrase_render he).not_mem_semicolon
    rw [readInit, takeLine_append hline, initTokens, Option.map_some, ← Expr.ofTokens_tokens he]
    rfl

/-- A declaration of a variable is read from its tokens. -/
theorem readLine_declaration {init : Option Expr} (h : IsTyped ty name)
    (hinit : ∀ e ∈ init, e.Readable) :
    readLine (declarationTokens ty name init ++ rest) =
      some (.var ty name (init.map Expr.flat), rest) := by
  obtain ⟨htyped, hinner⟩ := typed_takeWords h (head?_initTokens init rest)
  rw [declarationTokens, List.append_assoc, List.append_assoc, List.singleton_append, readLine,
    htyped, hinner]
  simp [readInit_initTokens hinit]

/-- An expression on a line of its own is read from its tokens. -/
theorem readLine_phrase (h : Phrase ts text) :
    readLine (ts ++ .sign [';'] :: rest) = some (.expr (Expr.ofTokens ts), rest) := by
  rw [readLine, typed_of_length_le (h.length_takeWords_le [';'] rest),
    takeLine_append h.not_mem_semicolon]
  rfl

/-- A line that starts as expressions do is no other statement. -/
theorem readStmt_of_startsPhrase {t : Token} (h : startsPhrase t = true) :
    readStmt (t :: ts) = readLine (t :: ts) := by
  have hsign {s : List Char} (hs : s ∈ [[';'], ['\x7b'], ['\x7d']]) : t ≠ .sign s := by
    rintro rfl
    exact startsPhrase_sign.1 h hs
  have hword {s : String} (hs : s.toList ∈ keywords) : t ≠ keyword s := by
    rintro rfl
    exact startsPhrase_word.1 h hs
  rw [readStmt, if_neg (hsign (by decide)), if_neg (hsign (by decide)), if_neg (hword (by decide)),
    if_neg (hword (by decide)), if_neg (hword (by decide)), if_neg (hword (by decide))]

/-- The tokens start as expressions do. -/
def StartsPhrase (ts : List Token) : Prop := ∃ t us, ts = t :: us ∧ startsPhrase t = true

/-- A statement that no keyword or brace starts is a line. -/
theorem readStmt_line (h : StartsPhrase ts) : readStmt (ts ++ rest) = readLine (ts ++ rest) := by
  obtain ⟨t, us, rfl, ht⟩ := h
  exact readStmt_of_startsPhrase ht

/-- A declaration starts with a word that is no keyword. -/
theorem startsPhrase_declaration {init : Option Expr} (h : IsTyped ty name) :
    StartsPhrase (declarationTokens ty name init) := by
  obtain ⟨first, types, hfirst, -, htokens⟩ := exists_words h
  rw [declarationTokens, htokens]
  exact ⟨_, _, rfl, startsPhrase_word.2 hfirst.2⟩

/-- An expression starts with no keyword and no brace. -/
theorem startsPhrase_expr {e : Expr} (h : e.Readable) :
    StartsPhrase (e.tokens ++ [.sign [';']]) := by
  obtain ⟨t, us, he, ht⟩ := (Expr.phrase_render h).exists_cons
  exact ⟨t, us ++ [.sign [';']], by rw [he]; rfl, ht⟩

/-- An `if` takes a condition, a statement, and an `else` if one follows. -/
theorem readStmt_if (hcond : ReadsFrom takeEnclosed ts cond us)
    (htrue : ReadsFrom readStmt us s vs) (hfalse : readElse vs = some (f, rest)) :
    readStmt (keyword "if" :: ts) = some (.ifElse (Expr.ofTokens cond) s f, rest) := by
  rw [readStmt, if_neg (by decide), if_neg (by decide), if_pos rfl, hcond.shorter]
  simp only [htrue.shorter, hfalse, Option.bind_eq_bind, Option.bind_some]
  rfl

/-- A loop takes a condition and a statement. -/
theorem readStmt_while (hcond : ReadsFrom takeEnclosed ts cond us)
    (hbody : readStmt us = some (s, rest)) :
    readStmt (keyword "while" :: ts) = some (.whileLoop (Expr.ofTokens cond) s, rest) := by
  rw [readStmt, if_neg (by decide), if_neg (by decide), if_neg (by decide), if_pos rfl,
    hcond.shorter]
  simp only [hbody, Option.bind_eq_bind, Option.bind_some]
  rfl

/-- A return takes the rest of its line. -/
theorem readStmt_return : readStmt (keyword "return" :: ts) = (do
    let (line, rest) ← takeLine ts
    return (.ret (if line = [] then none else some (Expr.ofTokens line)), rest)) := by
  rw [readStmt, if_neg (by decide), if_neg (by decide), if_neg (by decide), if_neg (by decide),
    if_pos rfl]

/-- A discard takes nothing but its semicolon. -/
theorem readStmt_discard :
    readStmt (keyword "discard" :: .sign [';'] :: rest) = some (.discard, rest) := by
  rw [readStmt, if_neg (by decide), if_neg (by decide), if_neg (by decide), if_neg (by decide),
    if_neg (by decide), if_pos rfl]
  rfl

/-- What is between braces is read as a block. -/
theorem readStmt_braces {body : List Stmt}
    (h : readBody (ts ++ .sign ['\x7d'] :: rest) = some (body, rest)) :
    readStmt (braces ts ++ rest) = some (.block body, rest) := by
  rw [braces, List.cons_append, List.append_assoc, readStmt, if_pos rfl, List.singleton_append, h]
  rfl

/-- No statement starts with a closing brace or with an `else`. -/
theorem exists_cons_tokens (h : s.Readable) :
    ∃ t us, s.tokens = t :: us ∧ t ≠ .sign ['\x7d'] ∧ t ≠ keyword "else" := by
  have hphrase {ts : List Token} (h : StartsPhrase ts) :
      ∃ t us, ts = t :: us ∧ t ≠ .sign ['\x7d'] ∧ t ≠ keyword "else" := by
    obtain ⟨t, us, rfl, ht⟩ := h
    refine ⟨t, us, rfl, ?_, ?_⟩
    · rintro rfl
      cases ht
    · rintro rfl
      exact absurd ht (by decide)
  cases s with
  | expr e => exact hphrase (startsPhrase_expr h)
  | var ty name init => exact hphrase (startsPhrase_declaration h.1)
  | ret value => cases value <;> exact ⟨_, _, rfl, by decide, by decide⟩
  | _ => exact ⟨_, _, rfl, by decide, by decide⟩

/-- A statement that is read from its tokens leaves fewer behind. -/
theorem readsFrom_tokens {s' : Stmt} (h : s.Readable)
    (hread : readStmt (s.tokens ++ rest) = some (s', rest)) :
    ReadsFrom readStmt (s.tokens ++ rest) s' rest := by
  obtain ⟨t, us, hs, -, -⟩ := exists_cons_tokens h
  exact ⟨hread, length_lt_append (hs ▸ List.cons_ne_nil t us)⟩

/-- A body goes on behind a statement that is read. -/
theorem readBody_of_readStmt {s' : Stmt} (h : s.Readable)
    (hread : readStmt (s.tokens ++ rest) = some (s', rest)) :
    readBody (s.tokens ++ rest) = (readBody rest).map fun (body, rest) => (s' :: body, rest) := by
  have hfrom := readsFrom_tokens h hread
  obtain ⟨t, us, hs, hclose, -⟩ := exists_cons_tokens h
  rw [hs, List.cons_append] at hfrom ⊢
  rw [readBody, if_neg hclose, hfrom.shorter]
  simp only [Option.bind_eq_bind, Option.bind_some]
  cases readBody rest <;> rfl

end

/-! ## Reading back -/

mutual

/-- A statement is read from its tokens if no `else` follows that would belong to it. -/
theorem readStmt_tokens : ∀ {s : Stmt}, s.Readable → ∀ rest : List Token,
    (s.hasDanglingIf = true → rest.head? ≠ some (keyword "else")) →
      readStmt (s.tokens ++ rest) = some (s.braced.flat, rest)
  | .block body, h, rest, _ => readStmt_braces (readBody_tokens (l := body) h rest)
  | .expr e, h, rest, _ => by
    have he : e.Readable := h
    rw [tokens, readStmt_line (startsPhrase_expr he), List.append_assoc, List.singleton_append,
      readLine_phrase (Expr.phrase_render he), Expr.ofTokens_tokens he]
    rfl
  | .var ty name init, h, rest, _ => by
    rw [tokens, readStmt_line (startsPhrase_declaration h.1), readLine_declaration h.1 h.2]
    rfl
  | .ifElse cond onTrue onFalse, ⟨hcond, htrue, hfalse⟩, rest, hrest => by
    obtain ⟨branch, s, htokens, hbraced, hbranch⟩ : ∃ branch s,
        (ifElse cond onTrue onFalse).tokens =
          keyword "if" :: (enclosed cond.tokens ++ (branch ++ tokensElse onFalse)) ∧
        (ifElse cond onTrue onFalse).braced = .ifElse cond s (bracedOption onFalse) ∧
        ReadsFrom readStmt (branch ++ (tokensElse onFalse ++ rest)) s.flat
          (tokensElse onFalse ++ rest) := by
      -- Between braces the branch ends before the `else`. Without them, either there is no `else`
      -- of its own, or it does not end in an `if` that would take it.
      by_cases hbraces : onFalse.isSome ∧ onTrue.hasDanglingIf
      · have hbody := readBody_of_readStmt htrue (readStmt_tokens htrue
          (.sign ['\x7d'] :: (tokensElse onFalse ++ rest)) fun _ => by simp [keyword])
        rw [readBody, if_pos rfl] at hbody
        refine ⟨braces onTrue.tokens, .block [onTrue.braced], ?_, ?_,
          readStmt_braces hbody, length_lt_append (List.cons_ne_nil _ _)⟩
        · rw [tokens, if_pos hbraces]
        · rw [braced, if_pos hbraces]
      · refine ⟨onTrue.tokens, onTrue.braced, ?_, ?_,
          readsFrom_tokens htrue (readStmt_tokens htrue _ fun hdangling => ?_)⟩
        · rw [tokens, if_neg hbraces]
        · rw [braced, if_neg hbraces]
        · cases onFalse with
          | none => exact hrest rfl
          | some s => exact absurd ⟨rfl, hdangling⟩ hbraces
    rw [htokens, hbraced, List.cons_append, List.append_assoc, List.append_assoc,
      readStmt_if (readsFrom_enclosed (Expr.phrase_render hcond).closed) hbranch
        (readElse_tokens hfalse rest hrest), Expr.ofTokens_tokens hcond]
    rfl
  | .whileLoop cond body, h, rest, hrest => by
    rw [tokens, List.cons_append, List.append_assoc,
      readStmt_while (readsFrom_enclosed (Expr.phrase_render h.1).closed)
        (readStmt_tokens h.2 rest hrest), Expr.ofTokens_tokens h.1]
    rfl
  | .ret none, _, rest, _ => by
    rw [tokens, List.cons_append, readStmt_return]
    rfl
  | .ret (some e), h, rest, _ => by
    have he := Expr.phrase_render (h e rfl)
    obtain ⟨t, us, hcons, -⟩ := he.exists_cons
    rw [tokens, List.cons_append, readStmt_return, List.append_assoc, List.singleton_append,
      takeLine_append he.not_mem_semicolon]
    simp only [Option.bind_eq_bind, Option.bind_some]
    rw [if_neg (by simp [hcons]), Expr.ofTokens_tokens (h e rfl)]
    rfl
  | .discard, _, rest, _ => readStmt_discard
  | .empty, _, rest, _ => by
    rw [tokens, List.singleton_append, readStmt, if_neg (by decide), if_pos rfl]
    rfl

/-- The second branch of an `if` is read from its tokens, or found missing where no `else`
follows. -/
theorem readElse_tokens : ∀ {s : Option Stmt}, ReadableOption s → ∀ rest : List Token,
    (hasDanglingIfOption s = true → rest.head? ≠ some (keyword "else")) →
      readElse (tokensElse s ++ rest) = some (flatOption (bracedOption s), rest)
  | none, _, [], _ => by
    rw [tokensElse, List.nil_append, readElse]
    rfl
  | none, _, t :: rest, hrest => by
    have hne : t ≠ keyword "else" := fun ht => hrest rfl (congrArg some ht)
    rw [tokensElse, List.nil_append, readElse, if_neg hne]
    rfl
  | some s, h, rest, hrest => by
    rw [tokensElse, List.cons_append, readElse, if_pos rfl, readStmt_tokens (s := s) h rest hrest]
    rfl

/-- The statements of a block are read from their tokens. -/
theorem readBody_tokens : ∀ {l : List Stmt}, ReadableAll l → ∀ rest : List Token,
    readBody (tokensAll l ++ .sign ['\x7d'] :: rest) = some (flatAll (bracedAll l), rest)
  | [], _, rest => by
    rw [tokensAll, List.nil_append, readBody, if_pos rfl]
    rfl
  | s :: ss, h, rest => by
    have hnext : (tokensAll ss ++ .sign ['\x7d'] :: rest).head? ≠ some (keyword "else") := by
      cases ss with
      | nil => simp [tokensAll, keyword]
      | cons s' ss =>
        obtain ⟨t, us, hcons, -, hne⟩ := exists_cons_tokens h.2.1
        rw [tokensAll, hcons]
        exact fun hhead => hne (Option.some.inj hhead)
    rw [tokensAll, List.append_assoc,
      readBody_of_readStmt h.1 (readStmt_tokens h.1 _ fun _ => hnext), readBody_tokens h.2 rest]
    rfl

end

end Stmt

/-! ## Declarations and programs -/

namespace Decl

section
variable {params : List Param}

/-- Parameters open no parenthesis. -/
theorem closed_params (h : ∀ p ∈ params, IsTyped p.ty p.name) : Closed (Param.tokens params) := by
  induction params with
  | nil => exact closed_nil
  | cons p params ih =>
    obtain ⟨hp, hparams⟩ := List.forall_mem_cons.1 h
    have hfirst : Closed (typedTokens p.ty p.name) := closed_of_words fun _ => exists_word_of_mem hp
    cases params with
    | nil => simpa [Param.tokens] using hfirst
    | cons p' params =>
      have hcomma : Closed [.sign [',']] := closed_singleton (by simp)
      simpa [Param.tokens] using (hfirst.append hcomma).append (ih hparams)

/-- Each parameter is read from its tokens. -/
theorem mapM_readParam (h : ∀ p ∈ params, IsTyped p.ty p.name) :
    (params.map fun p => typedTokens p.ty p.name).mapM readParam = some params := by
  induction params with
  | nil => rfl
  | cons p params ih =>
    obtain ⟨hp, hparams⟩ := List.forall_mem_cons.1 h
    have hread : readParam (typedTokens p.ty p.name) = some p := by
      have hend (s : List Char) : ([] : List Token).head? ≠ some (.word s) := by simp
      obtain ⟨htyped, hrest⟩ := typed_takeWords hp hend
      rw [List.append_nil] at htyped hrest
      rw [readParam, htyped, if_pos hrest]
      rfl
    rw [List.map_cons, List.mapM_cons, hread, ih hparams]
    rfl

/-- Parameters are read from their tokens, with the commas between them. -/
theorem readParams_tokens (h : ∀ p ∈ params, IsTyped p.ty p.name) :
    readParams (Param.tokens params) = some params := by
  cases params with
  | nil => rfl
  | cons p params =>
    have hne : Param.tokens (p :: params) ≠ [] := by
      cases params <;> simp [Param.tokens, typedTokens]
    have hsplit : (Param.tokens (p :: params)).splitOn (.sign [',']) =
        (p :: params).map fun p => typedTokens p.ty p.name := by
      refine List.splitOn_intercalate _ (fun l hl hmem => ?_) (by simp)
      obtain ⟨p, hp, rfl⟩ := List.mem_map.1 hl
      obtain ⟨s, hs⟩ := exists_word_of_mem (h p hp) hmem
      cases hs
    rw [readParams, if_neg hne, hsplit, mapM_readParam h]

/-- Every declaration has tokens. -/
theorem tokens_ne_nil (d : Decl) : d.tokens ≠ [] := by
  cases d <;> simp [tokens, Stmt.declarationTokens, typedTokens]

/-- A declaration is read from its tokens. -/
theorem readDecl_tokens {d : Decl} (h : d.Readable) (rest : List Token) :
    readDecl (d.tokens ++ rest) = some (d.braced.flat, rest) := by
  cases d with
  | global ty name init =>
    have hinit := Stmt.readInit_initTokens h.2 rest
    obtain ⟨htyped, hinner⟩ := typed_takeWords h.1 (Stmt.head?_initTokens init rest)
    rw [tokens, Stmt.declarationTokens, List.append_assoc, List.append_assoc,
      List.singleton_append, readDecl, htyped, hinner]
    simp only [Option.bind_eq_bind, Option.bind_some]
    split
    · next heq => cases init <;> cases heq
    · rw [hinit]
      rfl
  | function returnType name params body =>
    obtain ⟨htyped, hparams, hbody⟩ := h
    have hhead (s : List Char) : (enclosed (Param.tokens params) ++
        (braces (Stmt.tokensAll body) ++ rest)).head? ≠ some (.word s) := by
      simp [enclosed]
    obtain ⟨htyped, hinner⟩ := typed_takeWords htyped hhead
    rw [tokens, List.append_assoc, List.append_assoc, readDecl, htyped, hinner, enclosed]
    simp only [Option.bind_eq_bind, Option.bind_some, List.cons_append, List.append_assoc]
    rw [takeClosed_of_closed (closed_params hparams), List.nil_append]
    simp only [Option.bind_some]
    rw [readParams_tokens hparams, Option.bind_some, braces, List.cons_append, List.append_assoc,
      List.singleton_append, skip_sign, Option.bind_some, Stmt.readBody_tokens hbody]
    rfl

end

end Decl

namespace Program

/-- Declarations are read from their tokens one after another. -/
theorem readDecls_tokens {declarations : List Decl} (h : ∀ d ∈ declarations, d.Readable) :
    readDecls (declarations.flatMap Decl.tokens) =
      some (declarations.map fun d => d.braced.flat) := by
  induction declarations with
  | nil =>
    rw [List.flatMap_nil, readDecls]
    rfl
  | cons d ds ih =>
    obtain ⟨hd, hds⟩ := List.forall_mem_cons.1 h
    have hread : ReadsFrom readDecl (d.tokens ++ ds.flatMap Decl.tokens) d.braced.flat
        (ds.flatMap Decl.tokens) :=
      ⟨Decl.readDecl_tokens hd _, length_lt_append d.tokens_ne_nil⟩
    obtain ⟨t, us, hcons⟩ := List.exists_cons_of_ne_nil d.tokens_ne_nil
    rw [List.flatMap_cons]
    rw [hcons, List.cons_append] at hread ⊢
    rw [readDecls, hread.shorter]
    simp only [Option.bind_eq_bind, Option.bind_some]
    rw [ih hds]
    rfl

/-- Every `else` in the text of a program belongs to the `if` that it is of: the text is read as the
program, with braces around each branch that would take an `else` that follows. So programs with the
same tokens are the same but for such braces. -/
theorem render_keeps_else {p q : Program} (hp : p.Readable) (hq : q.Readable) :
    ofText? p.render = some p.braced.flat ∧
      (lex p.render.toList = lex q.render.toList → p.unbraced.flat = q.unbraced.flat) := by
  have hread {p : Program} (h : p.Readable) : ofText? p.render = some p.braced.flat := by
    rw [ofText?, lex_render h, tokens, readDecls_tokens h]
    simp [braced, flat, Function.comp_def]
  refine ⟨hread hp, fun htokens => ?_⟩
  have hsame : ofText? p.render = ofText? q.render := by rw [ofText?, ofText?, htokens]
  rw [hread hp, hread hq] at hsame
  rw [← unbraced_braced_flat p, ← unbraced_braced_flat q, Option.some.inj hsame]

/-- A loop that ends in an `if` stands between braces in front of an `else`. -/
theorem render_keeps_else_loop :
    let inner := Stmt.whileLoop (.ident "x") (.ifElse (.bool false) .discard none)
    let program (branch : Stmt) : Program :=
      ⟨[.function "void" "main" [⟨"const float", "x"⟩] [.ifElse (.bool true) branch (some .empty)]]⟩
    ofText? (program inner).render = some (program (.block [inner])).flat ∧
      (program inner).unbraced.flat = (program (.block [inner])).unbraced.flat := by
  intro inner program
  have hx : IsUnreserved "x" := by decide
  have hparam : IsTyped "const float" "x" := ⟨⟨["const", "float"], by decide, by decide, rfl⟩, hx⟩
  have hmain : IsTyped "void" "main" := ⟨⟨["void"], by decide, by decide, rfl⟩, by decide⟩
  have hreadable {branch : Stmt} (h : branch.Readable) : (program branch).Readable :=
    List.forall_mem_singleton.2
      ⟨hmain, List.forall_mem_singleton.2 hparam, ⟨trivial, h, trivial⟩, trivial⟩
  have hinner : inner.Readable := ⟨hx, trivial, trivial, trivial⟩
  have hp := hreadable hinner
  have hblock : (Stmt.block [inner]).Readable := ⟨hinner, trivial⟩
  have hq := hreadable hblock
  obtain ⟨hread, hsame⟩ := render_keeps_else hp hq
  refine ⟨hread, hsame ?_⟩
  rw [lex_render hp, lex_render hq]
  rfl

end Program

end ShaderShrink

import Mathlib.Data.List.DropRight
import ShaderShrink.Disk.Path

/-!
# The pieces of paths

A path is given by its pieces (`Path.ofPieces_pieces`, `Path.pieces_ofPieces`), and the pieces of a
name below a directory are those of the directory and the name (`Path.pieces_append`). So the parent
of a name below a directory is that directory (`Path.parent?_append`). In general the pieces of a
parent are the first ones of the path (`Path.parent?_cases`).
-/

namespace ShaderShrink.Path

variable {path parent name dir first last : String} {rest start : List String}

/-- A piece that leads from a directory to something directly in it. -/
structure Plain (name : String) : Prop where
  no_slash : '/' ∉ name.toList
  not_idle : isIdle name = false
  not_up : name ≠ ".."

/-- A name of three characters or more cannot be taken for a piece that leads elsewhere. -/
theorem Plain.of_length (hslash : '/' ∉ name.toList) (hlen : 3 ≤ name.length) : Plain name := by
  refine ⟨hslash, ?_, ?_⟩
  · rw [Bool.eq_false_iff]
    intro hidle
    simp only [isIdle, Bool.or_eq_true, decide_eq_true_eq] at hidle
    rcases hidle with rfl | rfl <;> revert hlen <;> decide
  · rintro rfl
    revert hlen
    decide

/-! ## Pieces -/

/-- What is split at slashes has the piece that was begun in front of it. -/
theorem piecesFrom_eq (piece l : List Char) :
    piecesFrom piece l = List.splitOnPPrepend (· == '/') l piece := by
  induction l generalizing piece with
  | nil => rfl
  | cons c rest ih =>
    rw [piecesFrom, List.splitOnPPrepend_cons_eq_if, ih, ih, List.splitOnPPrepend_nil_right]
    simp only [beq_iff_eq]

/-- A path is split at its slashes. -/
theorem pieces_eq (path : String) :
    pieces path = (path.toList.splitOn '/').map String.ofList := by
  rw [pieces, piecesFrom_eq, List.splitOnPPrepend_nil_right, List.splitOn_eq_splitOnP]

/-- The pieces of a name below a directory. -/
theorem pieces_append : pieces (dir ++ "/" ++ name) = pieces dir ++ pieces name := by
  have h : (dir ++ "/" ++ name).toList = dir.toList ++ '/' :: name.toList := by simp
  rw [pieces_eq, h, List.splitOn_append_cons_self, List.map_append, ← pieces_eq, ← pieces_eq]

/-- A name without slashes is one piece. -/
theorem pieces_of_no_slash (h : '/' ∉ name.toList) : pieces name = [name] := by
  rw [pieces_eq, List.splitOn_eq_singleton h, List.map_singleton, String.ofList_toList]

/-- There is no slash in a piece. -/
theorem no_slash_of_mem_pieces (h : name ∈ pieces path) : '/' ∉ name.toList := by
  have key (piece l : List Char) (hp : '/' ∉ piece) : ∀ m ∈ piecesFrom piece l, '/' ∉ m := by
    induction l generalizing piece with
    | nil => simpa [piecesFrom] using hp
    | cons c rest ih =>
      rw [piecesFrom]
      split
      · refine List.forall_mem_cons.2 ⟨by simpa using hp, ih [] List.not_mem_nil⟩
      · next hc => exact ih (c :: piece) (by simpa using ⟨Ne.symm hc, hp⟩)
  obtain ⟨m, hm, rfl⟩ := List.mem_map.1 h
  rw [String.toList_ofList]
  exact key [] _ List.not_mem_nil m hm

/-- A path is given by its pieces. -/
theorem ofPieces_pieces (h : pieces path = first :: rest) : ofPieces first rest = path := by
  rw [ofPieces, ← h, pieces_eq]
  apply String.ext
  rw [String.toList_intercalate, List.map_map]
  simp only [Function.comp_def, String.toList_ofList, List.map_id']
  exact List.intercalate_splitOn '/'

/-- Pieces without slashes are got back from the path of them. -/
theorem pieces_ofPieces (h : ∀ piece ∈ first :: rest, '/' ∉ piece.toList) :
    pieces (ofPieces first rest) = first :: rest := by
  rw [pieces_eq, ofPieces, String.toList_intercalate]
  have hslash : "/".toList = ['/'] := rfl
  rw [hslash, List.splitOn_intercalate '/' (by simpa using h) (by simp), List.map_map]
  simp [Function.comp_def]

/-- Every path has a piece. -/
theorem pieces_ne_nil (path : String) : pieces path ≠ [] := by
  rw [pieces_eq]
  simp [List.splitOn_ne_nil]

/-- A path that starts with a slash starts with an empty piece in front of others. -/
theorem isAbsolute_iff (h : pieces path = first :: rest) :
    isAbsolute path = true ↔ first = "" ∧ rest ≠ [] := by
  have hfirst : '/' ∉ first.toList := no_slash_of_mem_pieces (h ▸ List.mem_cons_self)
  rw [← ofPieces_pieces h, isAbsolute, ofPieces, String.toList_intercalate, decide_eq_true_iff]
  cases rest with
  | nil =>
    suffices first.toList.head? ≠ some '/' by simpa
    intro he
    exact hfirst (List.mem_of_mem_head? he)
  | cons second rest =>
    cases hl : first.toList with
    | nil => simp [List.intercalate, String.toList_eq_nil_iff.1 hl]
    | cons c l =>
      have hne : first ≠ "" := fun he => by simp [he] at hl
      rw [hl] at hfirst
      have hc : c ≠ '/' := fun he => hfirst (he ▸ List.mem_cons_self)
      simp [List.intercalate, hl, hne, hc]

/-! ## Parents -/

/-- What changes nothing is taken away at the end. -/
theorem trim_isPrefix (l : List String) : trim l <+: l := List.rdropWhile_prefix isIdle l

/-- Nothing is taken away from pieces whose last one changes something. -/
theorem trim_append (start : List String) (h : isIdle last = false) :
    trim (start ++ [last]) = start ++ [last] :=
  List.rdropWhile_concat_neg isIdle start last (by simp [h])

/-- The parent of a name below a directory is the directory. -/
theorem parent?_append (hdir : pieces dir = start ++ [last]) (hlast : isIdle last = false)
    (hname : Plain name) : parent? (dir ++ "/" ++ name) = some dir := by
  have hp : pieces (dir ++ "/" ++ name) = start ++ [last] ++ [name] := by
    rw [pieces_append, hdir, pieces_of_no_slash hname.no_slash]
  cases start with
  | nil =>
    have he : last = dir := by
      rw [← ofPieces_pieces hdir]
      simp [ofPieces]
    have hne : dir ≠ "" := by
      rintro rfl
      rw [he] at hlast
      cases hlast
    have ht : trim [name] = [name] := trim_append [] hname.not_idle
    simp only [parent?, hp, List.nil_append, List.singleton_append, ht]
    simp [trim, he, hne]
  | cons first start =>
    have hn : trim (start ++ [last] ++ [name]) = start ++ [last] ++ [name] :=
      trim_append _ hname.not_idle
    have ht : trim (start ++ [last]) = start ++ [last] := trim_append start hlast
    have hd : ofPieces first (start ++ [last]) = dir := ofPieces_pieces hdir
    simp only [parent?, hp, List.cons_append, hn]
    split
    · next h => simp at h
    · rw [List.dropLast_concat, ht]
      split
      · next h => simp at h
      · rw [hd]

/-- The path of a directory and that of a name below it start in the same place. -/
theorem isAbsolute_append (hdir : dir ≠ "") :
    isAbsolute (dir ++ "/" ++ name) = isAbsolute dir := by
  obtain ⟨c, l, hl⟩ := List.exists_cons_of_ne_nil (mt String.toList_eq_nil_iff.1 hdir)
  simp [isAbsolute, hl]

/-- The pieces of a parent are the first ones of the path, unless the path has one component
only. -/
theorem parent?_cases (h : parent? path = some parent) : parent = "" ∨ parent = "/" ∨
    isAbsolute parent = isAbsolute path ∧ pieces parent <+: pieces path := by
  obtain ⟨first, rest, hp⟩ := List.exists_cons_of_ne_nil (pieces_ne_nil path)
  have hslash : ∀ piece ∈ first :: rest, '/' ∉ piece.toList := fun piece hm =>
    no_slash_of_mem_pieces (hp ▸ hm)
  -- the parent is made of the first piece and some of those that follow it
  have key {l : List String} (hl : l <+: rest) (hne : first ≠ "" ∨ l ≠ [] ∧ rest ≠ []) :
      isAbsolute (ofPieces first l) = isAbsolute path ∧
        pieces (ofPieces first l) <+: pieces path := by
    have hpl : pieces (ofPieces first l) = first :: l := by
      refine pieces_ofPieces fun piece hm => hslash piece ?_
      exact (List.cons_prefix_cons.2 ⟨rfl, hl⟩).subset hm
    refine ⟨?_, ?_⟩
    · rw [Bool.eq_iff_iff, isAbsolute_iff hpl, isAbsolute_iff hp]
      rcases hne with hne | ⟨hl, hr⟩
      · simp [hne]
      · simp [hl, hr]
    · rw [hpl, hp]
      exact List.cons_prefix_cons.2 ⟨rfl, hl⟩
  simp only [parent?, hp] at h
  split at h
  · split at h
    · cases h
    · exact .inl (Option.some_inj.1 h).symm
  · next hne =>
    have hshort : trim (trim rest).dropLast <+: rest :=
      (trim_isPrefix _).trans ((List.dropLast_prefix _).trans (trim_isPrefix rest))
    split at h
    · split at h
      · exact .inr (.inl (Option.some_inj.1 h).symm)
      · next hf =>
        cases h
        have := key List.nil_prefix (.inl hf)
        exact .inr (.inr (by simpa [ofPieces] using this))
    · next hne' =>
      cases h
      refine .inr (.inr (key hshort (.inr ⟨hne', ?_⟩)))
      rintro rfl
      exact hne rfl

/-! ## Joining -/

/-- What is joined to a directory is at the end of the path. -/
theorem exists_join_eq (dir path : String) : ∃ before, join dir path = before ++ path := by
  rw [join]
  split
  · exact ⟨"", by simp⟩
  · split
    · exact ⟨dir, rfl⟩
    · exact ⟨dir ++ "/", rfl⟩

/-- A relative path is joined to a directory with a slash between them, unless the directory ends in
one. -/
theorem join_eq (hdir : dir ≠ "") (hlast : dir.toList.getLast? ≠ some '/')
    (hpath : isAbsolute path = false) : join dir path = dir ++ "/" ++ path := by
  rw [join, if_neg (by simp [hpath, hdir]), if_neg hlast]

end ShaderShrink.Path

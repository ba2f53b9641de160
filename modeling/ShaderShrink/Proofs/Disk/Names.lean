import ShaderShrink.Proofs.Disk.FileTree

/-!
# Names below a directory

`Path.joinAll` is the path that leads from a directory through some names. Its pieces are the first
ones of the directory's path and then the names (`Path.pieces_joinAll`), so different names give
different paths (`Path.joinAll_inj`), and the path leads where the names lead from the directory
(`FileTree.target_of_locate`). This holds of each path of a directory: it may be empty, and it may
end in slashes.
-/

namespace ShaderShrink

namespace Path

variable {root name path : String} {names names' start : List String}

/-- The path that leads from a directory through some names. -/
def joinAll (root : String) (names : List String) : String := names.foldl join root

/-- The pieces of a directory's path that stand in front of the names joined to it. -/
def stem (root : String) : List String :=
  if root = "" then []
  else if root.toList.getLast? = some '/' then (pieces root).dropLast
  else pieces root

/-- The last of some names is joined last. -/
theorem joinAll_concat (root : String) (names : List String) (name : String) :
    joinAll root (names ++ [name]) = join (joinAll root names) name := by
  rw [joinAll, List.foldl_concat, ← joinAll]

/-! ## Pieces -/

/-- A plain name is not empty. -/
theorem Plain.ne_empty (h : Plain name) : name ≠ "" := by
  rintro rfl
  exact absurd h.not_idle (by decide)

/-- A plain name is not an absolute path. -/
theorem Plain.not_absolute (h : Plain name) : isAbsolute name = false := by
  rw [isAbsolute, decide_eq_false_iff_not]
  intro hhead
  exact h.no_slash (List.mem_of_mem_head? hhead)

/-- A path ends in a slash if it is another path with a slash behind it. -/
theorem exists_eq_append_slash (h : path.toList.getLast? = some '/') :
    ∃ before, path = before ++ "/" := by
  obtain ⟨l, hl⟩ := List.getLast?_eq_some_iff.1 h
  refine ⟨String.ofList l, String.toList_inj.1 ?_⟩
  rw [hl, String.toList_append, String.toList_ofList]
  rfl

/-- A slash at the end of a path adds an empty piece. -/
theorem pieces_slash (before : String) : pieces (before ++ "/") = pieces before ++ [""] := by
  have h : pieces (before ++ "/" ++ "") = pieces before ++ pieces "" := pieces_append
  rwa [String.append_empty] at h

/-- The pieces of a directory's path that do not stand in front of the names joined to it change
nothing. -/
theorem exists_pieces_eq (root : String) :
    ∃ idle, pieces root = stem root ++ idle ∧ ∀ piece ∈ idle, isIdle piece := by
  rw [stem]
  split
  · next h =>
    subst h
    exact ⟨[""], rfl, by decide⟩
  split
  · next h =>
    obtain ⟨before, rfl⟩ := exists_eq_append_slash h
    rw [pieces_slash, List.dropLast_concat]
    exact ⟨[""], rfl, by decide⟩
  · exact ⟨[], (List.append_nil _).symm, nofun⟩

/-- A plain name that is joined adds a piece. -/
theorem pieces_join (h : Plain name) : pieces (join root name) = stem root ++ [name] := by
  have hname : pieces name = [name] := pieces_of_no_slash h.no_slash
  rw [stem]
  split
  · next hroot => rw [hroot, join, if_pos (by simp), hname, List.nil_append]
  next hroot =>
    split
    · next hlast =>
      obtain ⟨before, rfl⟩ := exists_eq_append_slash hlast
      rw [join, if_neg (by simp [h.not_absolute, hroot]), if_pos hlast, pieces_append, hname,
        pieces_slash, List.dropLast_concat]
    · next hlast => rw [join_eq hroot hlast h.not_absolute, pieces_append, hname]

/-- A path stays absolute, or relative, when a plain name is joined to it. -/
theorem isAbsolute_join (h : Plain name) : isAbsolute (join root name) = isAbsolute root := by
  by_cases hroot : root = ""
  · rw [hroot, join, if_pos (by simp), h.not_absolute]
    rfl
  · obtain ⟨c, l, hl⟩ := List.exists_cons_of_ne_nil (mt String.toList_eq_nil_iff.1 hroot)
    rw [join, if_neg (by simp [h.not_absolute, hroot])]
    split <;> simp [isAbsolute, hl]

/-- A path that ends in a name stands in front of the names joined to it as it is. -/
theorem stem_join (h : Plain name) : stem (join root name) = stem root ++ [name] := by
  obtain ⟨before, hbefore⟩ := exists_join_eq root name
  obtain ⟨c, hlast⟩ := Option.isSome_iff_exists.1
    (List.getLast?_isSome.2 (mt String.toList_eq_nil_iff.1 h.ne_empty))
  have hne : join root name ≠ "" := by
    intro he
    rw [hbefore, String.append_eq_empty_iff] at he
    exact h.ne_empty he.2
  have hslash : (join root name).toList.getLast? ≠ some '/' := by
    rw [hbefore, String.toList_append, List.getLast?_append, hlast]
    rintro hc
    rw [Option.some_or, Option.some_inj] at hc
    exact h.no_slash (hc ▸ List.mem_of_getLast? hlast)
  rw [← pieces_join h, stem, if_neg hne, if_neg hslash]

/-- Plain names that are joined to a path add a piece each. -/
theorem stem_joinAll (h : ∀ name ∈ names, Plain name) :
    stem (joinAll root names) = stem root ++ names := by
  induction names using List.reverseRecOn with
  | nil => rw [joinAll, List.foldl_nil, List.append_nil]
  | append_singleton names name ih =>
    rw [joinAll_concat, stem_join (h name (by simp)), ih fun other ho => h other (by simp [ho]),
      List.append_assoc]

/-- The pieces of a path that leads through some names are those in front and the names. -/
theorem pieces_joinAll (hne : names ≠ []) (h : ∀ name ∈ names, Plain name) :
    pieces (joinAll root names) = stem root ++ names := by
  obtain ⟨names, name, rfl⟩ := names.eq_nil_or_concat.resolve_left hne
  rw [List.concat_eq_append] at h ⊢
  rw [joinAll_concat, pieces_join (h name (by simp)),
    stem_joinAll fun other ho => h other (by simp [ho]), List.append_assoc]

/-- A path stays absolute, or relative, when plain names are joined to it. -/
theorem isAbsolute_joinAll (h : ∀ name ∈ names, Plain name) :
    isAbsolute (joinAll root names) = isAbsolute root := by
  induction names using List.reverseRecOn with
  | nil => rfl
  | append_singleton names name ih =>
    rw [joinAll_concat, isAbsolute_join (h name (by simp)),
      ih fun other ho => h other (by simp [ho])]

/-- Different names lead from a directory through different paths. -/
theorem joinAll_inj (hne : names ≠ []) (hne' : names' ≠ []) (h : ∀ name ∈ names, Plain name)
    (h' : ∀ name ∈ names', Plain name) : joinAll root names = joinAll root names' ↔
      names = names' := by
  refine ⟨fun he => ?_, fun he => he ▸ rfl⟩
  have hpieces := congrArg pieces he
  rwa [pieces_joinAll hne h, pieces_joinAll hne' h', List.append_right_inj] at hpieces

/-- A path that ends in a name leads to a file with this name. -/
theorem fileName?_joinAll (h : ∀ name ∈ names, Plain name) (hname : Plain name) :
    fileName? (joinAll root (names ++ [name])) = some name := by
  have hplain : ∀ other ∈ names ++ [name], Plain other := by
    intro other ho
    rcases List.mem_append.1 ho with ho | ho
    · exact h other ho
    · exact List.mem_singleton.1 ho ▸ hname
  have hfile : (isIdle name || name = "..") = false := by simp [hname.not_idle, hname.not_up]
  have hpieces : pieces (joinAll root (names ++ [name])) = stem root ++ (names ++ [name]) :=
    pieces_joinAll (by simp) hplain
  rw [← List.append_assoc] at hpieces
  rw [fileName?, hpieces]
  cases stem root ++ names with
  | nil => simpa [trim] using hfile
  | cons first start =>
    simp only [List.cons_append, trim_append start hname.not_idle]
    simpa using hfile

end Path

namespace FileTree

variable {t : FileTree} {here base place : Place} {root : String}
  {pieces idle rest names : List String} {target : Target}

/-- A path leads to a directory. The empty path leads to where relative paths start. -/
def LeadsTo (t : FileTree) (root : String) (base : Place) : Prop :=
  t.follow (t.start root) (Path.pieces root) = .ok (.existing base .directory)

/-- A path leads to a directory. -/
theorem LeadsTo.isDirectory (h : t.LeadsTo root base) (hwf : t.WellFormed) : t.isDirectory base :=
  isDirectory_iff.2 (sound_of_follow hwf hwf.isDirectory_start h)

/-- Pieces that change nothing can be left out behind a path of a directory. -/
theorem follow_of_append_idle (hidle : ∀ piece ∈ idle, Path.isIdle piece)
    (hf : t.follow here (pieces ++ idle) = .ok (.existing place .directory)) :
    t.follow here pieces = .ok (.existing place .directory) := by
  fun_induction follow t here pieces with
  | case1 here => rwa [List.nil_append, follow_idle hidle] at hf
  | case2 here piece rest hpiece ih =>
    rw [List.cons_append, follow, if_pos hpiece] at hf
    exact ih hf
  | case3 here rest hpiece ih =>
    rw [List.cons_append, follow, if_neg hpiece, if_pos rfl] at hf
    exact ih hf
  | case4 here piece rest hpiece hup hsize =>
    rw [List.cons_append, follow, if_neg hpiece, if_neg hup, if_pos hsize] at hf
    cases hf
  | case5 here piece rest hpiece hup hsize hget ih =>
    rw [List.cons_append, follow, if_neg hpiece, if_neg hup, if_neg hsize, hget] at hf
    exact ih hf
  | case6 here piece rest hpiece hup hsize entry hdir hget
  | case7 here piece rest hpiece hup hsize entry hdir hget =>
    cases entry with
    | directory => exact absurd rfl hdir
    | file text =>
      rw [List.cons_append, follow, if_neg hpiece, if_neg hup, if_neg hsize, hget] at hf
      dsimp only at hf
      split at hf <;> cases hf
  | case8 here piece rest hpiece hup hsize hget | case9 here piece rest hpiece hup hsize hget =>
    rw [List.cons_append, follow, if_neg hpiece, if_neg hup, if_neg hsize, hget] at hf
    dsimp only at hf
    split at hf <;> cases hf

/-- What is behind the path of a directory is followed from the directory on. -/
theorem LeadsTo.follow_stem (h : t.LeadsTo root base) :
    t.follow (t.start root) (Path.stem root ++ rest) = t.follow base rest := by
  obtain ⟨idle, hpieces, hidle⟩ := Path.exists_pieces_eq root
  rw [LeadsTo, hpieces] at h
  exact follow_append (follow_of_append_idle hidle h)

/-- Names that can be followed from a directory lead to the place that they are the names of. -/
theorem target_of_follow (hbase : t.isDirectory base) (hplain : ∀ name ∈ names, Path.Plain name)
    (hf : t.follow base names = .ok target) : target = t.targetAt (base ++ names) := by
  induction names generalizing base with
  | nil =>
    cases hf
    rw [List.append_nil, targetAt, isDirectory_iff.1 hbase]
  | cons name rest ih =>
    obtain ⟨hname, hrest⟩ := List.forall_mem_cons.1 hplain
    rw [follow, if_neg (by simp [hname.not_idle]), if_neg hname.not_up] at hf
    split at hf
    · cases hf
    split at hf
    · next hdir =>
      have he := ih (isDirectory_iff.2 hdir) hrest hf
      rwa [List.append_assoc] at he
    · next entry _ hget =>
      split at hf
      · next hempty =>
        obtain rfl := List.isEmpty_iff.1 hempty
        cases hf
        rw [targetAt, hget]
      · cases hf
    · next hget =>
      split at hf
      · next hempty =>
        -- names are not empty, so there are none behind this one
        obtain rfl : rest = [] := by
          refine List.eq_nil_iff_forall_not_mem.2 fun other ho => (hrest other ho).ne_empty ?_
          exact String.isEmpty_iff.1 (List.all_eq_true.1 hempty other ho)
        cases hf
        rw [targetAt, hget]
        rfl
      · cases hf

/-- A path that leads from a directory through some names leads to the place that they are the names
of. -/
theorem target_of_locate (hwf : t.WellFormed) (h : t.LeadsTo root base) (hne : names ≠ [])
    (hplain : ∀ name ∈ names, Path.Plain name)
    (hl : t.locate (Path.joinAll root names) = .ok target) :
    target = t.targetAt (base ++ names) := by
  have hf := (follow_of_locate hl).2
  rw [start, Path.isAbsolute_joinAll hplain, ← start, Path.pieces_joinAll hne hplain,
    h.follow_stem] at hf
  exact target_of_follow (h.isDirectory hwf) hplain hf

end FileTree

end ShaderShrink

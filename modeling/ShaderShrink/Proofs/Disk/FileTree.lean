import ShaderShrink.Disk.FileTree
import ShaderShrink.Proofs.Disk.Path

/-!
# Following paths in file trees

In a well-formed tree everything is in a directory (`FileTree.WellFormed`). There a path that can be
followed leads to what is at a place, or to a place in a directory where nothing is
(`FileTree.sound_of_follow`), and a path of a directory with a name behind it leads to that name in
the directory (`FileTree.locate_below`). Paths that lead to a directory lead there as long as
directories are only added (`FileTree.follow_directory_mono`).
-/

namespace ShaderShrink.FileTree

variable {t t' : FileTree} {here place dir x : Place} {entry : FileEntry} {text : String}
  {pieces rest : List String} {path name piece : String} {slash : Bool} {target : Target}

/-! ## Places -/

@[simp] theorem get?_nil : t.get? [] = some .directory := rfl

@[simp] theorem set_workingDir : (t.set place entry).workingDir = t.workingDir := rfl

@[simp] theorem erase_workingDir : (t.erase place).workingDir = t.workingDir := rfl

/-- Below the root there is what the entries say. -/
theorem get?_of_ne_nil (h : x ≠ []) : t.get? x = t.entries.lookup x := if_neg h

/-- A place that is no directory is not the root. -/
theorem ne_nil_of_get? (h : t.get? place ≠ some .directory) : place ≠ [] := by
  rintro rfl
  exact h get?_nil

/-- A place is a directory if that is found there. -/
theorem isDirectory_iff : t.isDirectory place ↔ t.get? place = some .directory := by
  simp [isDirectory]

/-- What is found for a key is not changed by leaving out entries with other keys. -/
theorem lookup_filter (keep : Place → Bool) (hx : keep x = true)
    (l : List (Place × FileEntry)) : (l.filter fun e => keep e.1).lookup x = l.lookup x := by
  induction l with
  | nil => rfl
  | cons e l ih =>
    rw [List.filter_cons]
    split
    · rw [List.lookup_cons, List.lookup_cons, ih]
    · next hk =>
      have hne : (x == e.1) = false := beq_eq_false_iff_ne.2 fun he => hk (he ▸ hx)
      rw [List.lookup_cons, hne, ih]

/-- Entries that were left out are not found. -/
theorem lookup_filter_eq_none (keep : Place → Bool) (hx : keep x = false)
    (l : List (Place × FileEntry)) : (l.filter fun e => keep e.1).lookup x = none := by
  rw [List.lookup_eq_none_iff]
  intro e he
  have hk := (List.mem_filter.1 he).2
  exact bne_iff_ne.2 fun hxe => by simp [← hxe, hx] at hk

/-- Putting something at a place changes that place alone. -/
theorem get?_set (h : place ≠ []) :
    (t.set place entry).get? x = if x = place then some entry else t.get? x := by
  by_cases hx : x = []
  · rw [if_neg (hx ▸ h.symm), hx, get?_nil, get?_nil]
  rw [get?_of_ne_nil hx, get?_of_ne_nil hx, set, List.lookup_cons]
  by_cases he : x = place
  · simp [he]
  · rw [beq_eq_false_iff_ne.2 he, if_neg he]
    exact lookup_filter (fun y => y ≠ place) (by simpa using he) _

/-- What was put at a place is found there. -/
theorem get?_set_self (h : place ≠ []) : (t.set place entry).get? place = some entry := by
  rw [get?_set h, if_pos rfl]

/-- Taking something away takes away all that is below it, and nothing else. -/
theorem get?_erase (h : place ≠ []) :
    (t.erase place).get? x = if place <+: x then none else t.get? x := by
  by_cases hx : x = []
  · rw [if_neg (by simpa [hx] using h), hx, get?_nil, get?_nil]
  rw [get?_of_ne_nil hx, get?_of_ne_nil hx, erase]
  split
  · next hp =>
    exact lookup_filter_eq_none (fun y => !place.isPrefixOf y) (by simpa using hp) _
  · next hp =>
    rw [← List.isPrefixOf_iff_prefix, Bool.not_eq_true] at hp
    exact lookup_filter (fun y => !place.isPrefixOf y) (by simp [hp]) _

/-! ## Well-formed trees -/

/-- Everything is in a directory, and relative paths start in one. -/
structure WellFormed (t : FileTree) : Prop where
  isDirectory_parent {place : Place} {name : String} :
    t.get? (place ++ [name]) ≠ none → t.isDirectory place
  isDirectory_workingDir : t.isDirectory t.workingDir

/-- A tree with nothing in it is well-formed. -/
theorem WellFormed.empty : WellFormed ⟨[], []⟩ := by
  refine ⟨fun {place name} h => absurd ?_ h, rfl⟩
  rw [get?_of_ne_nil (by simp)]
  rfl

/-- Below something that is not a directory there is nothing. -/
theorem WellFormed.get?_below (h : t.WellFormed) (hp : t.isDirectory place = false)
    (hx : place <+: x) (hne : x ≠ place) : t.get? x = none := by
  obtain ⟨names, rfl⟩ := hx
  replace hne : names ≠ [] := by simpa using hne
  induction names using List.reverseRecOn with
  | nil => exact absurd rfl hne
  | append_singleton names name ih =>
    by_contra hx
    rw [← List.append_assoc] at hx
    have hdir := h.isDirectory_parent hx
    rcases eq_or_ne names [] with rfl | hnames
    · rw [List.append_nil, hp] at hdir
      cases hdir
    · rw [isDirectory_iff, ih hnames] at hdir
      cases hdir

/-- Taking away a file takes away nothing else. -/
theorem WellFormed.get?_erase_file (h : t.WellFormed) (hp : t.get? place = some (.file text)) :
    (t.erase place).get? x = if x = place then none else t.get? x := by
  have hnil : place ≠ [] := ne_nil_of_get? (t := t) (by simp [hp])
  rw [get?_erase hnil]
  by_cases he : x = place
  · rw [if_pos (he ▸ List.prefix_rfl), if_pos he]
  · rw [if_neg he]
    split
    · next hx => rw [h.get?_below (by simp [isDirectory, hp]) hx he]
    · rfl

/-- Directories stay when something is put where no directory is. -/
theorem isDirectory_set (hp : t.isDirectory place = false) (hx : t.isDirectory x) :
    (t.set place entry).isDirectory x := by
  have hnil : place ≠ [] := ne_nil_of_get? (t := t) (by simpa [isDirectory] using hp)
  rw [isDirectory_iff, get?_set hnil, if_neg, isDirectory_iff.1 hx]
  rintro rfl
  rw [hp] at hx
  cases hx

/-- Directories stay when a file is taken away. -/
theorem WellFormed.isDirectory_erase_file (h : t.WellFormed)
    (hp : t.get? place = some (.file text)) (hx : t.isDirectory x) :
    (t.erase place).isDirectory x := by
  rw [isDirectory_iff] at hx
  rw [isDirectory_iff, h.get?_erase_file hp, if_neg, hx]
  rintro rfl
  rw [hp] at hx
  cases hx

/-- Putting something into a directory keeps the tree well-formed, unless it takes the place of
another directory. -/
theorem WellFormed.set (h : t.WellFormed) (hdir : t.isDirectory dir)
    (hp : t.isDirectory (dir ++ [name]) = false) : (t.set (dir ++ [name]) entry).WellFormed := by
  refine ⟨fun {place other} hx => isDirectory_set hp ?_,
    isDirectory_set hp h.isDirectory_workingDir⟩
  rw [get?_set (by simp)] at hx
  split at hx
  · next he => exact (List.append_inj' he rfl).1 ▸ hdir
  · exact h.isDirectory_parent hx

/-- Taking away a file keeps the tree well-formed. -/
theorem WellFormed.erase_file (h : t.WellFormed) (hp : t.get? place = some (.file text)) :
    (t.erase place).WellFormed := by
  refine ⟨fun {dir name} hx => ?_, h.isDirectory_erase_file hp h.isDirectory_workingDir⟩
  rw [h.get?_erase_file hp] at hx
  split at hx
  · exact absurd rfl hx
  · exact h.isDirectory_erase_file hp (h.isDirectory_parent hx)

/-- A directory is in a directory. -/
theorem WellFormed.isDirectory_dropLast (h : t.WellFormed) (hx : t.isDirectory x) :
    t.isDirectory x.dropLast := by
  induction x using List.reverseRecOn with
  | nil => exact hx
  | append_singleton x name =>
    have hne : t.get? (x ++ [name]) ≠ none := by simp [isDirectory_iff.1 hx]
    rw [List.dropLast_concat]
    exact h.isDirectory_parent hne

/-! ## Paths -/

/-- What a target says about the tree. -/
def Target.Sound (t : FileTree) : Target → Prop
  | .existing place entry => t.get? place = some entry
  | .missing place _ =>
    t.get? place = none ∧ ∃ dir name, place = dir ++ [name] ∧ t.isDirectory dir

/-- A path that can be followed leads to what is at a place, or to a place in a directory where
nothing is. -/
theorem sound_of_follow (h : t.WellFormed) (hhere : t.isDirectory here)
    (hf : t.follow here pieces = .ok target) : target.Sound t := by
  fun_induction follow t here pieces with
  | case1 here =>
    cases hf
    exact isDirectory_iff.1 hhere
  | case2 here piece rest hidle ih => exact ih hhere hf
  | case3 here rest hidle ih => exact ih (h.isDirectory_dropLast hhere) hf
  | case4 => cases hf
  | case5 here piece rest hidle hup hsize hget ih => exact ih (isDirectory_iff.2 hget) hf
  | case6 here piece rest hidle hup hsize entry hget hentry hrest =>
    cases hf
    exact hentry
  | case7 => cases hf
  | case8 here piece rest hidle hup hsize hget hrest =>
    cases hf
    exact ⟨hget, here, piece, rfl, hhere⟩
  | case9 => cases hf

/-- Paths lead to the same directories when directories are added. -/
theorem follow_directory_mono (hdirs : ∀ x, t.isDirectory x → t'.isDirectory x)
    (hf : t.follow here pieces = .ok (.existing place .directory)) :
    t'.follow here pieces = .ok (.existing place .directory) := by
  fun_induction follow t here pieces with
  | case1 here => rw [follow, ← hf]
  | case2 here piece rest hidle ih => rw [follow, if_pos hidle, ih hf]
  | case3 here rest hidle ih => rw [follow, if_neg hidle, if_pos rfl, ih hf]
  | case4 => cases hf
  | case5 here piece rest hidle hup hsize hget ih =>
    have hget' := isDirectory_iff.1 (hdirs _ (isDirectory_iff.2 hget))
    rw [follow, if_neg hidle, if_neg hup, if_neg hsize, hget', ih hf]
  | case6 here piece rest hidle hup hsize entry hget hentry hrest =>
    cases hf
    exact absurd rfl hget
  | case7 => cases hf
  | case8 => cases hf
  | case9 => cases hf

/-- Pieces behind a path of a directory are followed from there on. -/
theorem follow_append (hf : t.follow here pieces = .ok (.existing place .directory)) :
    t.follow here (pieces ++ rest) = t.follow place rest := by
  fun_induction follow t here pieces with
  | case1 here =>
    cases hf
    rfl
  | case2 here piece more hidle ih => rw [List.cons_append, follow, if_pos hidle, ih hf]
  | case3 here more hidle ih => rw [List.cons_append, follow, if_neg hidle, if_pos rfl, ih hf]
  | case4 => cases hf
  | case5 here piece more hidle hup hsize hget ih =>
    rw [List.cons_append, follow, if_neg hidle, if_neg hup, if_neg hsize, hget]
    exact ih hf
  | case6 here piece more hidle hup hsize entry hget hentry hrest =>
    cases hf
    exact absurd rfl hget
  | case7 => cases hf
  | case8 => cases hf
  | case9 => cases hf

/-- Pieces that change nothing lead nowhere else. -/
theorem follow_idle (h : ∀ piece ∈ pieces, Path.isIdle piece) :
    t.follow here pieces = .ok (.existing here .directory) := by
  induction pieces with
  | nil => rfl
  | cons piece rest ih =>
    rw [follow, if_pos (h piece List.mem_cons_self), ih fun x hx => h x (List.mem_cons_of_mem _ hx)]

/-- A directory that is made where a path leads to is where the path leads to. -/
theorem follow_set_directory (hp : t.get? place = none)
    (hf : t.follow here pieces = .ok (.missing place slash)) :
    (t.set place .directory).follow here pieces = .ok (.existing place .directory) := by
  fun_induction follow t here pieces with
  | case1 => cases hf
  | case2 here piece rest hidle ih => rw [follow, if_pos hidle, ih hf]
  | case3 here rest hidle ih => rw [follow, if_neg hidle, if_pos rfl, ih hf]
  | case4 => cases hf
  | case5 here piece rest hidle hup hsize hget ih =>
    have hne : here ++ [piece] ≠ place := by
      rintro rfl
      rw [hp] at hget
      cases hget
    have hget' : (t.set place .directory).get? (here ++ [piece]) = some .directory := by
      rw [get?_set (ne_nil_of_get? (t := t) (by simp [hp])), if_neg hne, hget]
    rw [follow, if_neg hidle, if_neg hup, if_neg hsize, hget', ih hf]
  | case6 => cases hf
  | case7 => cases hf
  | case8 here piece rest hidle hup hsize hget hrest =>
    cases hf
    rw [follow, if_neg hidle, if_neg hup, if_neg hsize, get?_set_self (by simp)]
    refine follow_idle fun piece hm => ?_
    have hempty := List.all_eq_true.1 hrest piece hm
    simp only [String.isEmpty_iff] at hempty
    simp [hempty, Path.isIdle]
  | case9 => cases hf

/-- Where a path starts. -/
def start (t : FileTree) (path : String) : Place :=
  if Path.isAbsolute path then [] else t.workingDir

/-- Paths start in a directory. -/
theorem WellFormed.isDirectory_start (h : t.WellFormed) : t.isDirectory (t.start path) := by
  rw [start]
  split
  · exact isDirectory_iff.2 get?_nil
  · exact h.isDirectory_workingDir

/-- A path that leads somewhere is one that can be followed. -/
theorem follow_of_locate (h : t.locate path = .ok target) :
    path ≠ "" ∧ t.follow (t.start path) (Path.pieces path) = .ok target := by
  rw [locate] at h
  split at h
  · cases h
  split at h
  · cases h
  next hne =>
    split at h
    · cases h
    · exact ⟨fun he => hne (by simp [he]), h⟩

/-- Whether a path leads somewhere is up to where its pieces lead. -/
theorem locate_congr (h : t.locate path = .ok target) :
    t'.locate path = t'.follow (t'.start path) (Path.pieces path) := by
  rw [locate] at h ⊢
  split at h
  · cases h
  next hnul =>
    split at h
    · cases h
    next hne =>
      split at h
      · cases h
      next hsize => rw [if_neg hnul, if_neg hne, if_neg hsize, start]

/-- A path leads to what is at a place, or to a place in a directory where nothing is. -/
theorem sound_of_locate (h : t.WellFormed) (hl : t.locate path = .ok target) : target.Sound t :=
  sound_of_follow h h.isDirectory_start (follow_of_locate hl).2

/-- What a path leads to whose last piece is a name in a directory. -/
def targetAt (t : FileTree) (place : Place) : Target :=
  match t.get? place with
  | some entry => .existing place entry
  | none => .missing place false

/-- A name leads to what is there under the name. -/
theorem targetAt_eq_existing :
    t.targetAt place = .existing x entry ↔ place = x ∧ t.get? place = some entry := by
  rw [targetAt]
  cases t.get? place <;> simp

/-- A name leads nowhere if nothing is there under the name. -/
theorem targetAt_eq_missing :
    t.targetAt place = .missing x slash ↔ place = x ∧ slash = false ∧ t.get? place = none := by
  rw [targetAt]
  cases t.get? place <;> simp [eq_comm]

/-- A name below a directory leads to that name in the directory. -/
theorem follow_below {dirPath : String} (h : t.locate dirPath = .ok (.existing dir .directory))
    (hn : Path.Plain name) :
    t.follow (t.start (dirPath ++ "/" ++ name)) (Path.pieces (dirPath ++ "/" ++ name)) =
      if name.utf8ByteSize > nameLimit then .error .nameTooLong
      else .ok (t.targetAt (dir ++ [name])) := by
  obtain ⟨hne, hf⟩ := follow_of_locate h
  have hidle : ¬ Path.isIdle name = true := by simp [hn.not_idle]
  rw [start, Path.isAbsolute_append hne, ← start, Path.pieces_append, follow_append hf,
    Path.pieces_of_no_slash hn.no_slash, follow, if_neg hidle, if_neg hn.not_up]
  split
  · rfl
  · rw [targetAt]
    cases t.get? (dir ++ [name]) with
    | none => rfl
    | some entry => cases entry <;> rfl

/-- A path of a name below a directory that leads somewhere leads to the name in the directory, and
it does so in each tree in which the directory is there. -/
theorem locate_below {dirPath : String} {dir' : Place}
    (h : t.locate dirPath = .ok (.existing dir .directory))
    (h' : t'.locate dirPath = .ok (.existing dir' .directory)) (hn : Path.Plain name)
    (hl : t.locate (dirPath ++ "/" ++ name) = .ok target) :
    t'.locate (dirPath ++ "/" ++ name) = .ok (t'.targetAt (dir' ++ [name])) := by
  have hf := (follow_of_locate hl).2
  rw [locate_congr hl, follow_below h' hn]
  rw [follow_below h hn] at hf
  split at hf
  · cases hf
  · next hsize => rw [if_neg hsize]

/-- A path is one of a directory if it leads to one. -/
theorem isDir_iff (h : t.WellFormed) :
    t.isDir path ↔ ∃ place, t.locate path = .ok (.existing place .directory) := by
  rw [isDir]
  split
  · next place entry hl =>
    have hs : t.get? place = some entry := sound_of_locate h hl
    simp [isDirectory, hs, hl]
  · next hne =>
    constructor
    · intro hf
      cases hf
    · rintro ⟨place, hl⟩
      exact (hne place _ hl).elim

/-! ## Directories on the way -/

/-- A path leads through a directory if some of its pieces, from the first one on, lead there. -/
def LeadsThrough (t : FileTree) (path : String) (place : Place) : Prop :=
  ∃ pieces, pieces <+: Path.pieces path ∧
    t.follow (t.start path) pieces = .ok (.existing place .directory)

/-- A path leads through the directory that it leads to. -/
theorem leadsThrough_of_locate (h : t.locate path = .ok (.existing place .directory)) :
    t.LeadsThrough path place := ⟨_, List.prefix_rfl, (follow_of_locate h).2⟩

/-- A path leads through the directories that the path without its last component leads through. -/
theorem LeadsThrough.of_parent {parent : String} (hp : Path.parent? path = some parent)
    (h : t.LeadsThrough parent place) : place = [] ∨ place = t.workingDir ∨
      t.LeadsThrough path place := by
  obtain ⟨pieces, hpieces, hf⟩ := h
  rcases Path.parent?_cases hp with rfl | rfl | ⟨habs, hprefix⟩
  · have hidle : ∀ piece ∈ Path.pieces "", Path.isIdle piece := by decide
    rw [follow_idle fun piece hm => hidle piece (hpieces.subset hm)] at hf
    cases hf
    exact .inr (.inl rfl)
  · have hidle : ∀ piece ∈ Path.pieces "/", Path.isIdle piece := by decide
    rw [follow_idle fun piece hm => hidle piece (hpieces.subset hm)] at hf
    cases hf
    exact .inl rfl
  · exact .inr (.inr ⟨pieces, hpieces.trans hprefix, by rwa [start, ← habs]⟩)

end ShaderShrink.FileTree

import ShaderShrink.Proofs.Disk.FileTree

/-!
# What operations change in file trees

Making a directory adds directories that its path leads through, and writing and moving files with
some names in a directory changes what has these names there. `FileTree.Confined` says that nothing
else happens. It holds of each operation, whatever its result is, and of operations one after
another.
-/

namespace ShaderShrink.FileTree

variable {t t' t'' : FileTree} {here place dir x : Place} {entry : FileEntry} {text : String}
  {path parent name source : String} {names names' : List String} {result : Except DiskError Unit}

/-- What may have happened at a place when a path was made a directory and files with some names
were filed there: nothing, a directory was made that the path leads through, or one of the files
was written, moved or taken away. -/
inductive Allowed (path : String) (names : List String) (t t' : FileTree) (place : Place) : Prop
  | same : t'.get? place = t.get? place → Allowed path names t t' place
  | made : t.get? place = none → t'.isDirectory place → t'.LeadsThrough path place →
      Allowed path names t t' place
  | filed {dir : Place} {name : String} : name ∈ names → place = dir ++ [name] →
      t.isDirectory place = false → t'.locate path = .ok (.existing dir .directory) →
      Allowed path names t t' place

/-- A well-formed tree that came from another one by nothing else than making a path a directory and
filing files with some names there. -/
structure Confined (path : String) (names : List String) (t t' : FileTree) : Prop where
  wellFormed : t'.WellFormed
  workingDir_eq : t'.workingDir = t.workingDir
  allowed (place : Place) : Allowed path names t t' place

namespace Confined

/-- Nothing was changed. -/
theorem refl (h : t.WellFormed) : Confined path names t t := ⟨h, rfl, fun _ => .same rfl⟩

/-- What fails may have changed something, but it promises nothing more. -/
theorem failed {ε : Type} {error : ε} {p : Prop} (h : Confined path names t t') :
    Confined path names t t' ∧ ((.error error : Except ε Unit) = .ok () → p) := ⟨h, nofun⟩

/-- More names may be allowed. -/
theorem mono (h : Confined path names t t') (hsub : names ⊆ names') :
    Confined path names' t t' := by
  refine ⟨h.wellFormed, h.workingDir_eq, fun place => ?_⟩
  cases h.allowed place with
  | same he => exact .same he
  | made hnone hdir hleads => exact .made hnone hdir hleads
  | filed hname hplace hdir hl => exact .filed (hsub hname) hplace hdir hl

/-- Directories stay. -/
theorem isDirectory (h : Confined path names t t') (hx : t.isDirectory x) : t'.isDirectory x := by
  rw [isDirectory_iff] at hx ⊢
  cases h.allowed x with
  | same he => rw [he, hx]
  | made hnone =>
    rw [hnone] at hx
    cases hx
  | filed _ _ hdir =>
    rw [FileTree.isDirectory, hx] at hdir
    simp at hdir

/-- Paths start where they did. -/
theorem start_eq (h : Confined path names t t') (other : String) :
    t'.start other = t.start other := by
  rw [start, start, h.workingDir_eq]

/-- Paths that lead to directories lead there still. -/
theorem locate_directory (h : Confined path names t t') {other : String}
    (hl : t.locate other = .ok (.existing dir .directory)) :
    t'.locate other = .ok (.existing dir .directory) := by
  rw [locate_congr hl, h.start_eq]
  exact follow_directory_mono (fun _ => h.isDirectory) (follow_of_locate hl).2

/-- Paths that lead through directories lead through them still. -/
theorem leadsThrough (h : Confined path names t t') {other : String}
    (hl : t.LeadsThrough other place) : t'.LeadsThrough other place := by
  obtain ⟨pieces, hpieces, hf⟩ := hl
  exact ⟨pieces, hpieces, h.start_eq other ▸ follow_directory_mono (fun _ => h.isDirectory) hf⟩

/-- Changes at a path may follow each other. -/
theorem trans (h : Confined path names t t') (h' : Confined path names t' t'') :
    Confined path names t t'' := by
  refine ⟨h'.wellFormed, h'.workingDir_eq.trans h.workingDir_eq, fun place => ?_⟩
  cases h.allowed place with
  | same he =>
    cases h'.allowed place with
    | same he' => exact .same (he'.trans he)
    | made hnone hdir hleads => exact .made (he ▸ hnone) hdir hleads
    | filed hname hplace hdir hl =>
      exact .filed hname hplace (by rwa [FileTree.isDirectory, ← he]) hl
  | made hnone hdir hleads => exact .made hnone (h'.isDirectory hdir) (h'.leadsThrough hleads)
  | filed hname hplace hdir hl => exact .filed hname hplace hdir (h'.locate_directory hl)

/-- Files with other names are left alone. -/
theorem locate_file (h : Confined path names t t') (hname : name ∉ names) (hn : Path.Plain name)
    (hl : t.locate path = .ok (.existing dir .directory))
    (hf : t.locate (path ++ "/" ++ name) = .ok (.existing place (.file text))) :
    t'.locate (path ++ "/" ++ name) = .ok (.existing place (.file text)) := by
  obtain ⟨rfl, hget⟩ := targetAt_eq_existing.1
    (Except.ok.inj ((locate_below hl hl hn hf).symm.trans hf))
  rw [locate_below hl (h.locate_directory hl) hn hf, targetAt_eq_existing.2 ⟨rfl, ?_⟩]
  cases h.allowed (dir ++ [name]) with
  | same he => rw [he, hget]
  | made hnone =>
    rw [hnone] at hget
    cases hget
  | @filed dir' other hother hplace hdir hl' =>
    have he : other = name := by simpa using (List.append_inj' hplace rfl).2.symm
    exact absurd (he ▸ hother) hname

/-- A file is put into the directory, where there may be a file with its name already. -/
theorem set_file (h : t.WellFormed) (hl : t.locate path = .ok (.existing dir .directory))
    (hname : name ∈ names) (hp : t.isDirectory (dir ++ [name]) = false) :
    Confined path names t (t.set (dir ++ [name]) (.file text)) := by
  have hdir : t.isDirectory dir := isDirectory_iff.2 (sound_of_locate h hl)
  have hl' : (t.set (dir ++ [name]) (.file text)).locate path = .ok (.existing dir .directory) := by
    rw [locate_congr hl]
    exact follow_directory_mono (fun _ => isDirectory_set hp) (follow_of_locate hl).2
  refine ⟨h.set hdir hp, rfl, fun x => ?_⟩
  by_cases hx : x = dir ++ [name]
  · exact .filed hname hx (hx ▸ hp) hl'
  · exact .same (by rw [get?_set (by simp), if_neg hx])

/-- A file is taken out of the directory. -/
theorem erase_file (h : t.WellFormed) (hl : t.locate path = .ok (.existing dir .directory))
    (hname : name ∈ names) (hp : t.get? (dir ++ [name]) = some (.file text)) :
    Confined path names t (t.erase (dir ++ [name])) := by
  have hl' : (t.erase (dir ++ [name])).locate path = .ok (.existing dir .directory) := by
    rw [locate_congr hl]
    exact follow_directory_mono (fun _ => h.isDirectory_erase_file hp) (follow_of_locate hl).2
  refine ⟨h.erase_file hp, rfl, fun x => ?_⟩
  by_cases hx : x = dir ++ [name]
  · exact .filed hname hx (by simp [hx, FileTree.isDirectory, hp]) hl'
  · exact .same (by rw [h.get?_erase_file hp, if_neg hx])

/-- What is confined to the parent of a path is confined to the path. -/
theorem of_parent (h : t.WellFormed) (hp : Path.parent? path = some parent)
    (hc : Confined parent [] t t') : Confined path names t t' := by
  refine ⟨hc.wellFormed, hc.workingDir_eq, fun place => ?_⟩
  cases hc.allowed place with
  | same he => exact .same he
  | made hnone hdir hleads =>
    rcases hleads.of_parent hp with rfl | rfl | hleads
    · cases hnone
    · rw [hc.workingDir_eq, isDirectory_iff.1 h.isDirectory_workingDir] at hnone
      cases hnone
    · exact .made hnone hdir hleads
  | filed hname => cases hname

end Confined

/-! ## Making directories -/

/-- Making a directory changes nothing else, and the path is one of a directory then. -/
theorem createDir_confined (names : List String) (h : t.WellFormed)
    (e : t.createDir path = .ok t') :
    Confined path names t t' ∧ t'.isDir path := by
  simp only [createDir] at e
  split at e
  · cases e
  · cases e
  next place slash hl =>
    cases e
    obtain ⟨hnone, dir, name, rfl, hdir⟩ := sound_of_locate h hl
    have hp : t.isDirectory (dir ++ [name]) = false := by simp [isDirectory, hnone]
    have hl' : (t.set (dir ++ [name]) .directory).locate path =
        .ok (.existing (dir ++ [name]) .directory) := by
      rw [locate_congr hl]
      exact follow_set_directory hnone (follow_of_locate hl).2
    have hwf : (t.set (dir ++ [name]) .directory).WellFormed := h.set hdir hp
    refine ⟨⟨hwf, rfl, fun x => ?_⟩, (isDir_iff hwf).2 ⟨_, hl'⟩⟩
    by_cases hx : x = dir ++ [name]
    · subst hx
      exact .made hnone (isDirectory_iff.2 (get?_set_self (by simp))) (leadsThrough_of_locate hl')
    · exact .same (by rw [get?_set (by simp), if_neg hx])

/-- Making a directory that may be there changes nothing else, and the path is one of a directory
then. -/
theorem ensureDir_confined (names : List String) (h : t.WellFormed)
    (e : t.ensureDir path = .ok t') :
    Confined path names t t' ∧ t'.isDir path := by
  simp only [ensureDir] at e
  split at e
  · next hc =>
    cases e
    exact createDir_confined names h hc
  · split at e
    · next hd =>
      cases e
      exact ⟨.refl h, hd⟩
    · cases e

/-- Making a directory adds directories that its path leads through, as far as it comes. -/
theorem createDirsWithin_confined {levels : Nat} (names : List String) (h : t.WellFormed)
    (e : t.createDirsWithin levels path = (result, t')) :
    Confined path names t t' ∧ (result = .ok () → path ≠ "" → t'.isDir path) := by
  induction levels generalizing path t t' result names with
  | zero =>
    cases e
    exact (Confined.refl h).failed
  | succ levels ih =>
    simp only [createDirsWithin] at e
    split at e
    · next hempty =>
      cases e
      exact ⟨.refl h, fun _ hne => absurd (String.isEmpty_iff.1 hempty) hne⟩
    split at e
    · next hc =>
      cases e
      obtain ⟨hc', hd⟩ := createDir_confined names h hc
      exact ⟨hc', fun _ _ => hd⟩
    · split at e
      · cases e
        exact (Confined.refl h).failed
      next parent hp =>
        split at e
        · next hparent =>
          cases e
          exact (Confined.of_parent h hp (ih [] h hparent).1).failed
        next middle hparent =>
          have hmiddle : Confined path names t middle := .of_parent h hp (ih [] h hparent).1
          split at e
          · next he =>
            cases e
            obtain ⟨hc, hd⟩ := ensureDir_confined names hmiddle.wellFormed he
            exact ⟨hmiddle.trans hc, fun _ _ => hd⟩
          · cases e
            exact hmiddle.failed
    · split at e
      · next hd =>
        cases e
        exact ⟨.refl h, fun _ _ => hd⟩
      · cases e
        exact (Confined.refl h).failed

/-- Making all directories on a path changes nothing else, and the path is one of a directory then
if nothing failed. -/
theorem createDirAll_confined (names : List String) (h : t.WellFormed)
    (e : t.createDirAll path = (result, t')) :
    Confined path names t t' ∧ (result = .ok () → path ≠ "" → t'.isDir path) :=
  createDirsWithin_confined names h e

/-! ## Writing and moving files -/

/-- Where an operation puts a file below a directory, no directory is. -/
theorem isDirectory_eq_false_of_locate {target : Target}
    (hl : t.locate path = .ok (.existing dir .directory)) (hn : Path.Plain name)
    (hf : t.locate (path ++ "/" ++ name) = .ok target)
    (htarget : (∃ old, target = .existing place (.file old)) ∨ target = .missing place false) :
    place = dir ++ [name] ∧ t.isDirectory (dir ++ [name]) = false := by
  have he : target = t.targetAt (dir ++ [name]) :=
    Except.ok.inj (hf.symm.trans (locate_below hl hl hn hf))
  rcases htarget with ⟨old, rfl⟩ | rfl
  · obtain ⟨hplace, hget⟩ := targetAt_eq_existing.1 he.symm
    exact ⟨hplace.symm, by simp [isDirectory, hget]⟩
  · obtain ⟨hplace, -, hget⟩ := targetAt_eq_missing.1 he.symm
    exact ⟨hplace.symm, by simp [isDirectory, hget]⟩

/-- A file that is put into a directory is where its path leads to. -/
theorem locate_set_file {target : Target} (hl : t.locate path = .ok (.existing dir .directory))
    (hl' : t'.locate path = .ok (.existing dir .directory)) (hn : Path.Plain name)
    (hf : t.locate (path ++ "/" ++ name) = .ok target)
    (hp : t'.isDirectory (dir ++ [name]) = false) :
    (t'.set (dir ++ [name]) (.file text)).locate (path ++ "/" ++ name) =
      .ok (.existing (dir ++ [name]) (.file text)) := by
  have hset :
      (t'.set (dir ++ [name]) (.file text)).locate path = .ok (.existing dir .directory) := by
    rw [locate_congr hl']
    exact follow_directory_mono (fun _ => isDirectory_set hp) (follow_of_locate hl').2
  rw [locate_below hl hset hn hf, targetAt_eq_existing.2 ⟨rfl, get?_set_self (by simp)⟩]

/-- A file is put where its path leads to, in a tree that came from the one in which the path was
followed. -/
theorem Confined.put (hc : Confined path names t t') {target : Target}
    (hl : t.locate path = .ok (.existing dir .directory)) (hn : Path.Plain name)
    (hname : name ∈ names)
    (hp : t.isDirectory (dir ++ [name]) = false → t'.isDirectory (dir ++ [name]) = false)
    (hf : t.locate (path ++ "/" ++ name) = .ok target)
    (htarget : (∃ old, target = .existing place (.file old)) ∨ target = .missing place false) :
    Confined path names t (t'.set place (.file text)) ∧
      (t'.set place (.file text)).locate (path ++ "/" ++ name) =
        .ok (.existing (dir ++ [name]) (.file text)) := by
  obtain ⟨rfl, hdir⟩ := isDirectory_eq_false_of_locate hl hn hf htarget
  have hl' := hc.locate_directory hl
  exact ⟨hc.trans (.set_file hc.wellFormed hl' hname (hp hdir)),
    locate_set_file hl hl' hn hf (hp hdir)⟩

/-- Writing a file in a directory changes nothing but this file. -/
theorem write_confined (h : t.WellFormed) (hl : t.locate path = .ok (.existing dir .directory))
    (hn : Path.Plain name) (hname : name ∈ names)
    (e : t.write (path ++ "/" ++ name) text = (result, t')) :
    Confined path names t t' ∧
      (result = .ok () →
        t'.locate (path ++ "/" ++ name) = .ok (.existing (dir ++ [name]) (.file text))) := by
  simp only [write] at e
  split at e
  · cases e
    exact (Confined.refl h).failed
  · cases e
    exact (Confined.refl h).failed
  · next place old hf =>
    cases e
    obtain ⟨hc, hl'⟩ := (Confined.refl h).put hl hn hname id hf (.inl ⟨old, rfl⟩)
    exact ⟨hc, fun _ => hl'⟩
  · cases e
    exact (Confined.refl h).failed
  · next place hf =>
    cases e
    obtain ⟨hc, hl'⟩ := (Confined.refl h).put hl hn hname id hf (.inr rfl)
    exact ⟨hc, fun _ => hl'⟩

/-- Moving a file within a directory changes nothing but the files with the two names. -/
theorem rename_confined (h : t.WellFormed) (hl : t.locate path = .ok (.existing dir .directory))
    (hs : Path.Plain source) (hn : Path.Plain name) (hsource : source ∈ names)
    (hname : name ∈ names)
    (hf : t.locate (path ++ "/" ++ source) = .ok (.existing place (.file text)))
    (e : t.rename (path ++ "/" ++ source) (path ++ "/" ++ name) = (result, t')) :
    Confined path names t t' ∧
      (result = .ok () →
        t'.locate (path ++ "/" ++ name) = .ok (.existing (dir ++ [name]) (.file text))) := by
  obtain ⟨rfl, hget⟩ := targetAt_eq_existing.1
    (Except.ok.inj ((locate_below hl hl hs hf).symm.trans hf))
  have htaken : Confined path names t (t.erase (dir ++ [source])) := .erase_file h hl hsource hget
  have hp (hp : t.isDirectory (dir ++ [name]) = false) :
      (t.erase (dir ++ [source])).isDirectory (dir ++ [name]) = false := by
    rw [isDirectory, h.get?_erase_file hget]
    split
    · rfl
    · exact hp
  simp only [rename, fileAt, hf] at e
  split at e
  · cases e
    exact (Confined.refl h).failed
  · cases e
    exact (Confined.refl h).failed
  · cases e
    exact (Confined.refl h).failed
  · next place old hf =>
    cases e
    obtain ⟨hc, hl'⟩ := htaken.put hl hn hname hp hf (.inl ⟨old, rfl⟩)
    exact ⟨hc, fun _ => hl'⟩
  · next place hf =>
    cases e
    obtain ⟨hc, hl'⟩ := htaken.put hl hn hname hp hf (.inr rfl)
    exact ⟨hc, fun _ => hl'⟩

end ShaderShrink.FileTree

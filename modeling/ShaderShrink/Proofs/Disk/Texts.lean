import Mathlib.Logic.Function.Basic
import ShaderShrink.Proofs.Disk.Changes
import ShaderShrink.Proofs.Disk.Names

/-!
# The texts in a tree

What the files of a tree say, whatever directories there are (`FileTree.textAt`). Making directories
changes nothing of it, and files that are written or copied one after another lie over what was
there before (`overlay`). The lemmas on operations are about paths below a directory that is known
in a tree `origin`; they hold in each tree that has the directories of `origin`
(`FileTree.Extends`).
-/

namespace ShaderShrink

/-! ## Files over others -/

/-- The texts behind some files, given by the names that lead to them from a directory: each one is
put over what was there before. -/
def overlay (base : Place) (files : List (List String × String)) (texts : Place → Option String) :
    Place → Option String :=
  files.foldl (fun texts file => Function.update texts (base ++ file.1) (some file.2)) texts

section
variable {base place : Place} {files more : List (List String × String)}
  {file : List String × String} {texts texts' : Place → Option String} {names : List String}
  {text : String}

@[simp] theorem overlay_nil : overlay base [] texts = texts := rfl

/-- Files are put one over another, the first one first. -/
theorem overlay_cons : overlay base (file :: files) texts =
    overlay base files (Function.update texts (base ++ file.1) (some file.2)) := rfl

/-- Files are put over others. -/
theorem overlay_append :
    overlay base (files ++ more) texts = overlay base more (overlay base files texts) :=
  List.foldl_append

/-- What lies over a place depends on what was there before, and on no other place. -/
theorem overlay_congr (h : texts place = texts' place) :
    overlay base files texts place = overlay base files texts' place := by
  induction files generalizing texts texts' with
  | nil => exact h
  | cons file files ih =>
    rw [overlay_cons, overlay_cons]
    refine ih ?_
    rw [Function.update_apply, Function.update_apply, h]

/-- Where none of the files is put there is what was there before. -/
theorem overlay_of_forall_ne (h : ∀ file ∈ files, place ≠ base ++ file.1) :
    overlay base files texts place = texts place := by
  induction files generalizing texts with
  | nil => rfl
  | cons file files ih =>
    obtain ⟨hfile, hfiles⟩ := List.forall_mem_cons.1 h
    rw [overlay_cons, ih hfiles, Function.update_of_ne hfile]

/-- Of files with different names each one has its text in the end. -/
theorem overlay_of_mem (hnodup : (files.map Prod.fst).Nodup) (h : (names, text) ∈ files) :
    overlay base files texts (base ++ names) = some text := by
  induction files generalizing texts with
  | nil => cases h
  | cons file files ih =>
    rw [List.map_cons, List.nodup_cons] at hnodup
    rw [overlay_cons]
    rcases List.mem_cons.1 h with rfl | h
    · rw [overlay_of_forall_ne, Function.update_self]
      intro other ho he
      exact hnodup.1 (List.mem_map.2 ⟨other, ho, (List.append_cancel_left he).symm⟩)
    · exact ih hnodup.2 h

/-- What is at a place is the text of the file that was put there, or what was there before. -/
theorem overlay_eq_some (hnodup : (files.map Prod.fst).Nodup) :
    overlay base files texts place = some text ↔
      (∃ file ∈ files, place = base ++ file.1 ∧ text = file.2) ∨
        (∀ file ∈ files, place ≠ base ++ file.1) ∧ texts place = some text := by
  by_cases hfile : ∃ file ∈ files, place = base ++ file.1
  · obtain ⟨⟨names, text'⟩, hmem, rfl⟩ := hfile
    rw [overlay_of_mem hnodup hmem, Option.some_inj]
    constructor
    · rintro rfl
      exact .inl ⟨_, hmem, rfl, rfl⟩
    · rintro (⟨⟨names', text''⟩, hmem', he, rfl⟩ | ⟨hnone, -⟩)
      · obtain rfl := List.append_cancel_left he
        have hover : overlay base files texts (base ++ names) = some text' :=
          overlay_of_mem hnodup hmem
        exact Option.some_inj.1 (hover.symm.trans (overlay_of_mem hnodup hmem'))
      · exact absurd rfl (hnone _ hmem)
  · have hne : ∀ file ∈ files, place ≠ base ++ file.1 := fun file hmem he => hfile ⟨file, hmem, he⟩
    rw [overlay_of_forall_ne hne]
    constructor
    · intro htext
      exact .inr ⟨hne, htext⟩
    · rintro (⟨file, hmem, he, -⟩ | ⟨-, htext⟩)
      · exact absurd he (hne file hmem)
      · exact htext

end

namespace FileTree

variable {origin t t' : FileTree} {base place x : Place} {text path root : String}
  {names source target : List String} {result : Except DiskError Unit}

/-! ## Texts -/

/-- The text of the file at a place. -/
def textAt (t : FileTree) (place : Place) : Option String :=
  match t.get? place with
  | some (.file text) => some text
  | _ => none

/-- The text at a place is that of the file there. -/
theorem textAt_eq_some : t.textAt place = some text ↔ t.get? place = some (.file text) := by
  rw [textAt]
  split
  · next hget => rw [hget, Option.some_inj, Option.some_inj, FileEntry.file.injEq]
  · next hnone => exact ⟨nofun, fun hget => absurd hget (hnone text)⟩

/-- A directory has no text. -/
theorem textAt_eq_none_of_isDirectory (h : t.isDirectory place) : t.textAt place = none := by
  rw [textAt, isDirectory_iff.1 h]

/-- A file that is put at a place changes the text of that place alone. -/
theorem textAt_set_file (h : place ≠ []) :
    (t.set place (.file text)).textAt = Function.update t.textAt place (some text) := by
  funext x
  rw [textAt, get?_set h, Function.update_apply]
  by_cases hx : x = place
  · rw [if_pos hx, if_pos hx]
  · rw [if_neg hx, if_neg hx, ← textAt]

/-- Taking something away changes no text elsewhere. -/
theorem textAt_erase (h : place ≠ []) (hx : ¬ place <+: x) :
    (t.erase place).textAt x = t.textAt x := by
  rw [textAt, get?_erase h, if_neg hx, ← textAt]

/-- Where nothing but a directory is made, the texts stay as they are. -/
theorem Confined.textAt_eq (h : Confined path [] t t') : t'.textAt = t.textAt := by
  funext x
  cases h.allowed x with
  | same he => rw [textAt, he, ← textAt]
  | made hnone hdir => rw [textAt_eq_none_of_isDirectory hdir, textAt, hnone]
  | filed hname => cases hname

/-! ## Trees with the directories of another one -/

/-- A well-formed tree with the directories of another one. -/
structure Extends (origin t : FileTree) : Prop where
  wellFormed : t.WellFormed
  workingDir_eq : t.workingDir = origin.workingDir
  isDirectory {place : Place} : origin.isDirectory place → t.isDirectory place

namespace Extends

/-- A tree extends itself. -/
theorem refl (h : t.WellFormed) : Extends t t := ⟨h, rfl, id⟩

/-- A path leads to the same directory in a tree that extends another one. -/
theorem leadsTo (h : Extends origin t) (hroot : origin.LeadsTo root base) :
    t.LeadsTo root base := by
  rw [LeadsTo, start, h.workingDir_eq]
  exact follow_directory_mono (fun _ => h.isDirectory) hroot

/-- Filing texts at a path extends a tree. -/
theorem of_confined (h : Extends origin t) (hc : Confined path names t t') : Extends origin t' :=
  ⟨hc.wellFormed, hc.workingDir_eq.trans h.workingDir_eq,
    fun hx => hc.isDirectory (h.isDirectory hx)⟩

/-- Putting a file into a directory extends a tree. -/
theorem set_file (h : Extends origin t) (hp : t.isDirectory place = false)
    (hdir : t.isDirectory place.dropLast) : Extends origin (t.set place (.file text)) := by
  have hne : place ≠ [] := by
    rintro rfl
    rw [isDirectory_iff.2 get?_nil] at hp
    cases hp
  obtain ⟨dir, name, rfl⟩ := place.eq_nil_or_concat.resolve_left hne
  rw [List.concat_eq_append] at hp hdir ⊢
  rw [List.dropLast_concat] at hdir
  exact ⟨h.wellFormed.set hdir hp, h.workingDir_eq, fun hx => isDirectory_set hp (h.isDirectory hx)⟩

/-- A place can be taken away with what is below it if the other tree has no directory there. -/
theorem erase (h : Extends origin t) (horigin : origin.WellFormed) (hne : place ≠ [])
    (hfree : ∀ x, place <+: x → origin.isDirectory x = false) :
    Extends origin (t.erase place) := by
  have hkept {x : Place} (hx : ¬ place <+: x) : (t.erase place).get? x = t.get? x := by
    rw [get?_erase hne, if_neg hx]
  have hdirs {x : Place} (hx : origin.isDirectory x) : (t.erase place).isDirectory x := by
    have hx' : ¬ place <+: x := fun hp => by simp [hfree x hp] at hx
    rw [isDirectory_iff, hkept hx', ← isDirectory_iff]
    exact h.isDirectory hx
  refine ⟨⟨fun {dir name} hx => ?_, ?_⟩, h.workingDir_eq, hdirs⟩
  · have hx' : ¬ place <+: dir ++ [name] := fun hp => hx (by rw [get?_erase hne, if_pos hp])
    have hdir : ¬ place <+: dir := fun hp => hx' (hp.trans (List.prefix_append _ _))
    rw [hkept hx'] at hx
    rw [isDirectory_iff, hkept hdir, ← isDirectory_iff]
    exact h.wellFormed.isDirectory_parent hx
  · rw [erase_workingDir, h.workingDir_eq]
    exact hdirs horigin.isDirectory_workingDir

end Extends

/-! ## Operations that succeed -/

/-- Making directories changes no texts. -/
theorem createDirAll_texts (h : Extends origin t) (e : t.createDirAll path = (result, t')) :
    Extends origin t' ∧ t'.textAt = t.textAt := by
  have hc := (createDirAll_confined [] h.wellFormed e).1
  exact ⟨h.of_confined hc, hc.textAt_eq⟩

section
variable (h : Extends origin t) (hroot : origin.LeadsTo root base)
include h hroot

/-- Removing a directory leaves the texts alone that are not below it. -/
theorem removeDirAll_texts (horigin : origin.WellFormed) (hne : names ≠ [])
    (hplain : ∀ name ∈ names, Path.Plain name)
    (hfree : ∀ x, base ++ names <+: x → origin.isDirectory x = false)
    (e : t.removeDirAll (Path.joinAll root names) = (result, t')) :
    Extends origin t' ∧ ∀ x, ¬ base ++ names <+: x → t'.textAt x = t.textAt x := by
  rw [removeDirAll] at e
  split at e
  · cases e
    exact ⟨h, fun _ _ => rfl⟩
  · cases e
    exact ⟨h, fun _ _ => rfl⟩
  · next place hl =>
    cases e
    have htarget := target_of_locate h.wellFormed (h.leadsTo hroot) hne hplain hl
    obtain ⟨rfl, -⟩ := targetAt_eq_existing.1 htarget.symm
    have hne' : base ++ names ≠ [] := by simp [hne]
    exact ⟨h.erase horigin hne' hfree, fun x hx => textAt_erase hne' hx⟩
  · cases e
    exact ⟨h, fun _ _ => rfl⟩

/-- Writing a file puts its text over what was there. -/
theorem write_texts (hne : names ≠ []) (hplain : ∀ name ∈ names, Path.Plain name)
    (e : t.write (Path.joinAll root names) text = (.ok (), t')) :
    Extends origin t' ∧ t'.textAt = Function.update t.textAt (base ++ names) (some text) := by
  have hne' : base ++ names ≠ [] := by simp [hne]
  have hfound {target : Target} (hl : t.locate (Path.joinAll root names) = .ok target) :
      t.targetAt (base ++ names) = target :=
    (target_of_locate h.wellFormed (h.leadsTo hroot) hne hplain hl).symm
  rw [write] at e
  split at e
  · cases e
  · cases e
  · next place old hl =>
    cases e
    obtain ⟨rfl, hget⟩ := targetAt_eq_existing.1 (hfound hl)
    have hdir : t.isDirectory (base ++ names).dropLast := by
      have hlast : t.get? ((base ++ names).dropLast ++ [(base ++ names).getLast hne']) ≠ none := by
        rw [List.dropLast_append_getLast, hget]
        exact Option.some_ne_none _
      exact h.wellFormed.isDirectory_parent hlast
    exact ⟨h.set_file (by simp [isDirectory, hget]) hdir, textAt_set_file hne'⟩
  · cases e
  · next place hl =>
    cases e
    obtain ⟨rfl, -, hget⟩ := targetAt_eq_missing.1 (hfound hl)
    obtain ⟨-, dir, name, hplace, hdir⟩ := sound_of_locate h.wellFormed hl
    refine ⟨h.set_file (by simp [isDirectory, hget]) ?_, textAt_set_file hne'⟩
    rw [hplace, List.dropLast_concat]
    exact hdir

/-- Copying a file puts its text over what was at the other place. -/
theorem copy_texts (hsource : source ≠ []) (hplain : ∀ name ∈ source, Path.Plain name)
    (hne : target ≠ []) (hplain' : ∀ name ∈ target, Path.Plain name) (hother : source ≠ target)
    (htext : t.textAt (base ++ source) = some text)
    (e : t.copy (Path.joinAll root source) (Path.joinAll root target) = (.ok (), t')) :
    Extends origin t' ∧ t'.textAt = Function.update t.textAt (base ++ target) (some text) := by
  rw [copy, fileAt] at e
  split at e
  · cases e
  · cases e
  next place text' hfile =>
    split at hfile
    · cases hfile
    · cases hfile
    · cases hfile
    next place hl =>
      cases hfile
      have htarget := target_of_locate h.wellFormed (h.leadsTo hroot) hsource hplain hl
      obtain ⟨rfl, hget⟩ := targetAt_eq_existing.1 htarget.symm
      obtain rfl := Option.some_inj.1 (htext.symm.trans (textAt_eq_some.2 hget))
      split at e
      · cases e
      · next emptied hemptied =>
        obtain ⟨h₁, htexts₁⟩ := write_texts h hroot hne hplain' hemptied
        have hkept : emptied.get? (base ++ source) = some (.file text) := by
          rw [← textAt_eq_some, htexts₁, Function.update_of_ne, htext]
          rwa [Ne, List.append_right_inj]
        rw [if_pos hkept] at e
        obtain ⟨h₂, htexts₂⟩ := write_texts h₁ hroot hne hplain' e
        rw [htexts₁, Function.update_idem] at htexts₂
        exact ⟨h₂, htexts₂⟩

end

end FileTree

end ShaderShrink

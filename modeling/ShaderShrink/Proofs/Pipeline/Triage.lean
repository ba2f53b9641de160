import Mathlib.Data.List.Nodup
import ShaderShrink.Proofs.Disk.Texts
import ShaderShrink.Proofs.Pipeline.Filing
import ShaderShrink.Proofs.Pipeline.Schedule

/-!
# What is in the archive

A worker that starts on an empty output directory leaves its findings there, and nothing else but
its own files in `temp/` (`Session.play_files`). Drafts are put among the files of the current pair
and findings elsewhere, so a draft is still there when the last finding of the pair is copied, and
what lies over the places outside `temp/` are the findings, one pair after another.
-/

namespace ShaderShrink

variable {τ : Type} {origin t t' : FileTree} {base place : Place} {w : Worker τ} {counter : Nat}
  {side : Side} {job : ShaderJob} {result : JobResult} {exam : Exam} {i : Inspection} {f : Finding}
  {fs : List Finding} {draft : String × String} {drafts : List (String × String)}
  {name : String} {texts : Place → Option String}

open FileTree (Extends)

/-! ## Drafts and findings -/

/-- A place in the directory for the files of the current pair. -/
def Place.InTemp (base place : Place) : Prop := base ++ ["temp"] <+: place

/-- The file of a draft. -/
def Worker.draftFile (w : Worker τ) (draft : String × String) : List String × String :=
  (w.workNames ++ [draft.1], draft.2)

/-- Drafts are in `temp/`. -/
theorem Worker.inTemp_draft (w : Worker τ) (base : Place) (name : String) :
    Place.InTemp base (base ++ (w.workNames ++ [name])) := by
  have hwork := w.temp_prefix_workNames.trans (List.prefix_append w.workNames [name])
  exact (List.prefix_append_right_inj base).2 hwork

/-- Findings are outside `temp/`. -/
theorem Finding.not_inTemp (f : Finding) : ¬ Place.InTemp base (base ++ f.names) := by
  rw [Place.InTemp, List.prefix_append_right_inj]
  exact f.not_temp_prefix_names

/-- Drafts have plain names. -/
theorem Exam.plain_drafts (h : draft ∈ exam.drafts side job) : Path.Plain draft.1 := by
  cases exam with
  | invalid | failed | died => exact List.mem_singleton.1 h ▸ Document.plain_draftName _ _
  | ran result =>
    rcases List.mem_pair.1 h with rfl | rfl
    · exact Document.plain_draftName _ _
    · exact Document.plain_draftName _ _

/-- Drafts for one program have names of their own. -/
theorem Exam.nodup_drafts : ((exam.drafts side job).map Prod.fst).Nodup := by
  cases exam with
  | invalid | failed | died => exact List.pairwise_singleton _ _
  | ran result =>
    refine List.pairwise_pair.2 fun h => ?_
    cases (Document.draftName_inj.1 h).2

/-- A draft for a program has the name of one of its documents. -/
theorem Exam.exists_draftName_eq (h : draft ∈ exam.drafts side job) :
    ∃ document : Document, draft.1 = document.draftName side := by
  cases exam with
  | invalid | failed | died => exact ⟨.job, List.mem_singleton.1 h ▸ rfl⟩
  | ran result =>
    rcases List.mem_pair.1 h with rfl | rfl
    · exact ⟨.job, rfl⟩
    · exact ⟨.result, rfl⟩

/-- The documents about a program that ran are its drafts. -/
theorem mem_drafts_of_mem_documents {folder : Folder}
    (h : f ∈ documents folder counter side job result) :
    (f.draftName, f.text) ∈ (Exam.ran result).drafts side job := by
  rcases List.mem_pair.1 h with rfl | rfl
  · exact List.mem_cons_self
  · exact List.mem_cons_of_mem _ List.mem_cons_self

/-- What is to be filed of a program is among its drafts. -/
theorem Exam.mem_drafts_of_mem_findings {config : WorkerConfig}
    (h : f ∈ exam.findings config counter side job) :
    (f.draftName, f.text) ∈ exam.drafts side job := by
  cases exam with
  | invalid => exact List.mem_singleton.1 h ▸ List.mem_cons_self
  | failed | died => cases h
  | ran result =>
    rw [findings] at h
    split at h
    · exact mem_drafts_of_mem_documents h
    · cases h

namespace Inspection

/-- The drafts for the reference program. -/
def referenceDrafts (i : Inspection) : List (String × String) :=
  match i.reference with
  | none => []
  | some exam => exam.drafts .reference i.pair.reference

/-- Drafts for the reference program have names of their own. -/
theorem nodup_referenceDrafts : (i.referenceDrafts.map Prod.fst).Nodup := by
  rw [referenceDrafts]
  split
  · exact .nil
  · exact Exam.nodup_drafts

/-- A draft for the reference program has the name of one of its documents. -/
theorem exists_draftName_eq (h : draft ∈ i.referenceDrafts) :
    ∃ document : Document, draft.1 = document.draftName .reference := by
  rw [referenceDrafts] at h
  split at h
  · cases h
  · exact Exam.exists_draftName_eq h

/-- What is to be filed of both programs is among the drafts for one of them. -/
theorem mem_drafts_of_mem_mismatches (h : f ∈ i.mismatches counter) :
    (f.draftName, f.text) ∈ i.referenceDrafts ∨
      (f.draftName, f.text) ∈ i.variant.drafts .variant i.pair.variant := by
  rw [mismatches] at h
  split at h
  · next variant reference hvariant hreference =>
    rw [referenceDrafts, hvariant, hreference]
    split at h
    · exact (List.mem_append.1 h).imp mem_drafts_of_mem_documents mem_drafts_of_mem_documents
    · cases h
  · cases h

end Inspection

/-- Findings do not lie over drafts. -/
theorem overlay_findings_draft : overlay base (fs.map Finding.file) texts
    (base ++ (w.workNames ++ [name])) = texts (base ++ (w.workNames ++ [name])) := by
  refine overlay_of_forall_ne fun file hfile he => ?_
  obtain ⟨f, -, rfl⟩ := List.mem_map.1 hfile
  exact f.not_inTemp (he ▸ w.inTemp_draft base name)

/-- Drafts lie over nothing outside their directory. -/
theorem overlay_drafts_outside (h : ¬ Place.InTemp base place) :
    overlay base (drafts.map w.draftFile) texts place = texts place := by
  refine overlay_of_forall_ne fun file hfile he => ?_
  obtain ⟨draft, -, rfl⟩ := List.mem_map.1 hfile
  exact h (he ▸ w.inTemp_draft base draft.1)

/-- Drafts have their texts. -/
theorem overlay_drafts_self (hnodup : (drafts.map Prod.fst).Nodup) (h : draft ∈ drafts) :
    overlay base (drafts.map w.draftFile) texts (base ++ (w.workNames ++ [draft.1])) =
      some draft.2 := by
  refine overlay_of_mem ?_ (List.mem_map.2 ⟨draft, h, rfl⟩)
  have hnames : (drafts.map w.draftFile).map Prod.fst =
      (drafts.map Prod.fst).map fun name => w.workNames ++ [name] := by
    rw [List.map_map, List.map_map]
    rfl
  rw [hnames]
  refine List.Nodup.map (fun name name' he => ?_) hnodup
  exact List.singleton_inj.1 (List.append_cancel_left he)

/-- Drafts do not lie over drafts with other names. -/
theorem overlay_drafts_other (h : ∀ draft ∈ drafts, name ≠ draft.1) :
    overlay base (drafts.map w.draftFile) texts (base ++ (w.workNames ++ [name])) =
      texts (base ++ (w.workNames ++ [name])) := by
  refine overlay_of_forall_ne fun file hfile he => ?_
  obtain ⟨draft, hdraft, rfl⟩ := List.mem_map.1 hfile
  have hnames := List.append_cancel_left (List.append_cancel_left he)
  exact h draft hdraft (List.singleton_inj.1 hnames)

/-- What is to be filed of both programs is still drafted when both have been worked on. -/
theorem overlay_mismatch_draft {fs₁ fs₂ : List Finding} (h : f ∈ i.mismatches counter) :
    overlay base (fs₂.map Finding.file) (overlay base (i.referenceDrafts.map w.draftFile)
      (overlay base (fs₁.map Finding.file) (overlay base
        ((i.variant.drafts .variant i.pair.variant).map w.draftFile) texts)))
      (base ++ (w.workNames ++ [f.draftName])) = some f.text := by
  rw [overlay_findings_draft]
  rcases Inspection.mem_drafts_of_mem_mismatches h with hdraft | hdraft
  · exact overlay_drafts_self Inspection.nodup_referenceDrafts hdraft
  · rw [overlay_drafts_other, overlay_findings_draft]
    · exact overlay_drafts_self Exam.nodup_drafts hdraft
    · intro draft hother he
      obtain ⟨document, hvariant⟩ := Exam.exists_draftName_eq hdraft
      obtain ⟨document', hreference⟩ := Inspection.exists_draftName_eq hother
      cases (Document.draftName_inj.1 (hvariant.symm.trans (he.trans hreference))).1

/-! ## Scripts on trees -/

section
variable (hroot : origin.LeadsTo w.archive.root base)
include hroot

/-- Writing drafts puts their texts over what was there, and nothing else changes. -/
theorem drafting_texts (h : Extends origin t) (hplain : ∀ draft ∈ drafts, Path.Plain draft.1)
    (hp : Performs (drafts.map w.drafting) t t') : Extends origin t' ∧
      t'.textAt = overlay base (drafts.map w.draftFile) t.textAt := by
  induction drafts generalizing t with
  | nil =>
    obtain rfl := performs_nil.1 hp
    exact ⟨h, rfl⟩
  | cons draft drafts ih =>
    obtain ⟨hdraft, hplain⟩ := List.forall_mem_cons.1 hplain
    obtain ⟨result, t₁, hact, hsucceeded, hrest⟩ := performs_cons.1 hp
    obtain rfl := DiskCall.ok_of_succeeded hsucceeded rfl
    obtain ⟨h₁, htexts⟩ := FileTree.write_texts h hroot (by simp)
      (fun _ => Worker.plain_draft hdraft) hact
    obtain ⟨h', htexts'⟩ := ih h₁ hplain hrest
    rw [htexts', htexts, List.map_cons, overlay_cons]
    exact ⟨h', rfl⟩

/-- Copying drafts puts the findings over what was there, and nothing else changes. -/
theorem copying_texts (h : Extends origin t)
    (hdrafts : ∀ f ∈ fs, t.textAt (base ++ (w.workNames ++ [f.draftName])) = some f.text)
    (hp : Performs (fs.map w.copying) t t') : Extends origin t' ∧
      t'.textAt = overlay base (fs.map Finding.file) t.textAt := by
  induction fs generalizing t with
  | nil =>
    obtain rfl := performs_nil.1 hp
    exact ⟨h, rfl⟩
  | cons f fs ih =>
    obtain ⟨hdraft, hdrafts⟩ := List.forall_mem_cons.1 hdrafts
    obtain ⟨result, t₁, hact, hsucceeded, hrest⟩ := performs_cons.1 hp
    obtain rfl := DiskCall.ok_of_succeeded hsucceeded rfl
    have hne : w.workNames ++ [f.draftName] ≠ f.names := by
      intro he
      exact f.not_inTemp (he ▸ w.inTemp_draft base f.draftName)
    obtain ⟨h₁, htexts⟩ := FileTree.copy_texts h hroot (by simp)
      (fun _ => Worker.plain_draft (f.document.plain_draftName f.side)) Finding.names_ne_nil
      (fun _ => Finding.plain_names) hne hdraft hact
    have hdrafts₁ : ∀ g ∈ fs,
        t₁.textAt (base ++ (w.workNames ++ [g.draftName])) = some g.text := by
      intro g hg
      have hother : base ++ (w.workNames ++ [g.draftName]) ≠ base ++ f.names := by
        intro he
        exact f.not_inTemp (he ▸ w.inTemp_draft base g.draftName)
      rw [htexts, Function.update_of_ne hother, hdrafts g hg]
    obtain ⟨h', htexts'⟩ := ih h₁ hdrafts₁ hrest
    rw [htexts', htexts, List.map_cons, overlay_cons]
    exact ⟨h', rfl⟩

/-- Findings are filed over what was there, if their drafts are. -/
theorem filing_texts (h : Extends origin t)
    (hdrafts : ∀ f ∈ fs, t.textAt (base ++ (w.workNames ++ [f.draftName])) = some f.text)
    (hp : Performs (w.filing fs) t t') : Extends origin t' ∧
      t'.textAt = overlay base (fs.map Finding.file) t.textAt := by
  cases fs with
  | nil =>
    obtain rfl := performs_nil.1 hp
    exact ⟨h, rfl⟩
  | cons f fs =>
    obtain ⟨result, t₁, hact, -, hrest⟩ := performs_cons.1 hp
    obtain ⟨h₁, htexts⟩ := FileTree.createDirAll_texts h hact
    rw [← htexts] at hdrafts ⊢
    exact copying_texts hroot h₁ hdrafts hrest

/-- The work on a program leaves its drafts and its findings. -/
theorem examScript_texts (h : Extends origin t)
    (hp : Performs (w.examScript counter side job exam) t t') : Extends origin t' ∧
      t'.textAt = overlay base ((exam.findings w.config counter side job).map Finding.file)
        (overlay base ((exam.drafts side job).map w.draftFile) t.textAt) := by
  obtain ⟨t₁, hdrafting, hfiling⟩ := performs_append.1 hp
  obtain ⟨h₁, htexts⟩ := drafting_texts hroot h (fun _ => Exam.plain_drafts) hdrafting
  have hdrafts : ∀ f ∈ exam.findings w.config counter side job,
      t₁.textAt (base ++ (w.workNames ++ [f.draftName])) = some f.text := by
    intro f hf
    rw [htexts]
    exact overlay_drafts_self Exam.nodup_drafts (Exam.mem_drafts_of_mem_findings hf)
  rw [← htexts]
  exact filing_texts hroot h₁ hdrafts hfiling

/-- The work on a pair leaves its findings outside the directory for its drafts. -/
theorem pairScript_texts (h : Extends origin t) (hp : Performs (w.pairScript counter i) t t') :
    Extends origin t' ∧ ∀ place, ¬ Place.InTemp base place → t'.textAt place =
      overlay base ((i.findings w.config counter).map Finding.file) t.textAt place := by
  obtain ⟨t₂, hp, hfiling⟩ := performs_append.1 hp
  obtain ⟨t₁, hvariant, hreference⟩ := performs_append.1 hp
  obtain ⟨h₁, htexts₁⟩ := examScript_texts hroot h hvariant
  obtain ⟨h₂, htexts₂⟩ : Extends origin t₂ ∧
      t₂.textAt = overlay base ((i.referenceFindings w.config counter).map Finding.file)
        (overlay base (i.referenceDrafts.map w.draftFile) t₁.textAt) := by
    unfold Worker.referenceScript at hreference
    unfold Inspection.referenceFindings Inspection.referenceDrafts
    cases hexam : i.reference with
    | none =>
      rw [hexam] at hreference
      obtain rfl := performs_nil.1 hreference
      exact ⟨h₁, rfl⟩
    | some exam =>
      rw [hexam] at hreference
      exact examScript_texts hroot h₁ hreference
  have hdrafts : ∀ f ∈ i.mismatches counter,
      t₂.textAt (base ++ (w.workNames ++ [f.draftName])) = some f.text := by
    intro f hf
    rw [htexts₂, htexts₁]
    exact overlay_mismatch_draft hf
  obtain ⟨h', htexts'⟩ := filing_texts hroot h₂ hdrafts hfiling
  refine ⟨h', fun place hplace => ?_⟩
  have hfirst : t₁.textAt place =
      overlay base ((i.variant.findings w.config counter .variant i.pair.variant).map Finding.file)
        t.textAt place := by
    rw [htexts₁]
    exact overlay_congr (overlay_drafts_outside hplace)
  have hsecond : t₂.textAt place =
      overlay base ((i.referenceFindings w.config counter).map Finding.file)
        t₁.textAt place := by
    rw [htexts₂]
    exact overlay_congr (overlay_drafts_outside hplace)
  rw [htexts', Inspection.findings, List.map_append, List.map_append, overlay_append,
    overlay_append]
  exact overlay_congr (hsecond.trans (overlay_congr hfirst))

/-- The work on some pairs leaves their findings outside the directory for drafts. -/
theorem script_texts (horigin : origin.WellFormed)
    (hempty : ∀ place, base <+: place → place ≠ base → origin.get? place = none)
    (counter : Nat) (inspections : List Inspection) (h : Extends origin t)
    (hp : Performs (w.script counter inspections) t t') :
    Extends origin t' ∧ ∀ place, ¬ Place.InTemp base place → t'.textAt place =
      overlay base ((w.findingsFrom counter inspections).map Finding.file) t.textAt place := by
  have hfree (place : Place) (hplace : base ++ w.workNames <+: place) :
      origin.isDirectory place = false := by
    have hne : place ≠ base := by
      rintro rfl
      have hlen := hplace.length_le
      rw [List.length_append] at hlen
      exact w.workNames_ne_nil (List.length_eq_zero_iff.1 (by omega))
    rw [FileTree.isDirectory, hempty place ((List.prefix_append _ _).trans hplace) hne]
    rfl
  induction inspections generalizing counter t with
  | nil =>
    obtain rfl := performs_nil.1 hp
    exact ⟨h, fun _ _ => rfl⟩
  | cons i rest ih =>
    rw [Worker.script_cons] at hp
    obtain ⟨removed, t₁, hremove, -, hp⟩ := performs_cons.1 hp
    obtain ⟨made, t₂, hmake, -, hp⟩ := performs_cons.1 hp
    obtain ⟨t₃, hpair, hrest⟩ := performs_append.1 hp
    rw [Worker.workDir_eq] at hremove
    obtain ⟨h₁, htexts₁⟩ := FileTree.removeDirAll_texts h hroot horigin
      w.workNames_ne_nil (fun _ => Worker.plain_workNames) hfree hremove
    obtain ⟨h₂, htexts₂⟩ := FileTree.createDirAll_texts h₁ hmake
    obtain ⟨h₃, htexts₃⟩ := pairScript_texts hroot h₂ hpair
    obtain ⟨h', htexts'⟩ := ih (counter + 1) h₃ hrest
    refine ⟨h', fun place hplace => ?_⟩
    have hreset : t₂.textAt place = t.textAt place := by
      rw [htexts₂]
      refine htexts₁ place fun hwork => hplace ?_
      exact ((List.prefix_append_right_inj base).2 w.temp_prefix_workNames).trans hwork
    rw [htexts' place hplace, Worker.findingsFrom_cons, List.map_append, overlay_append]
    exact overlay_congr ((htexts₃ place hplace).trans (overlay_congr hreset))

end

/-! ## Files that are written -/

namespace Worker

/-- Whether a path leads into the directory of a worker. -/
def isDraft (w : Worker τ) (path : String) : Bool :=
  (Path.pieces w.workDir).isPrefixOf (Path.pieces path)

/-- The paths of the files that operations write outside the directory of a worker. -/
def filed (w : Worker τ) (operations : List DiskOperation) : List String :=
  (operations.filterMap DiskOperation.written?).filter fun path => !w.isDraft path

/-- What is filed by some operations and then by more is filed by all of them. -/
theorem filed_append (w : Worker τ) (operations more : List DiskOperation) :
    w.filed (operations ++ more) = w.filed operations ++ w.filed more := by
  rw [filed, List.filterMap_append, List.filter_append, filed, filed]

/-- The path of a draft is told to be one. -/
theorem isDraft_draftPath (hname : Path.Plain name) : w.isDraft (w.draftPath name) = true := by
  rw [isDraft, List.isPrefixOf_iff_prefix, workDir_eq,
    Path.pieces_joinAll w.workNames_ne_nil fun _ => plain_workNames, draftPath,
    Path.pieces_joinAll (by simp) fun _ => plain_draft hname, List.prefix_append_right_inj]
  exact List.prefix_append _ _

/-- The path of a finding is not told to be that of a draft. -/
theorem isDraft_path (w : Worker τ) (f : Finding) : w.isDraft (f.path w.archive) = false := by
  rw [Bool.eq_false_iff, isDraft, Ne, List.isPrefixOf_iff_prefix, workDir_eq,
    Path.pieces_joinAll w.workNames_ne_nil fun _ => plain_workNames, Finding.path,
    Path.pieces_joinAll Finding.names_ne_nil fun _ => Finding.plain_names,
    List.prefix_append_right_inj]
  exact fun h => f.not_temp_prefix_names (w.temp_prefix_workNames.trans h)

/-- Writing drafts files nothing. -/
theorem filed_drafting (hplain : ∀ draft ∈ drafts, Path.Plain draft.1) :
    w.filed (drafts.map w.drafting) = [] := by
  rw [filed, List.filter_eq_nil_iff]
  intro path hpath
  obtain ⟨operation, hoperation, hwritten⟩ := List.mem_filterMap.1 hpath
  obtain ⟨draft, hdraft, rfl⟩ := List.mem_map.1 hoperation
  obtain rfl := Option.some_inj.1 hwritten
  rw [isDraft_draftPath (hplain draft hdraft)]
  nofun

/-- Filing findings files each of them, in their order. -/
theorem filed_filing (w : Worker τ) (fs : List Finding) :
    w.filed (w.filing fs) = fs.map (Finding.path w.archive) := by
  have hcopying (fs : List Finding) :
      w.filed (fs.map w.copying) = fs.map (Finding.path w.archive) := by
    induction fs with
    | nil => rfl
    | cons f fs ih =>
      have hf : w.filed [w.copying f] = [f.path w.archive] := by
        simp [filed, copying, DiskOperation.written?, w.isDraft_path]
      rw [List.map_cons, ← List.singleton_append, filed_append, ih, hf]
      rfl
  cases fs with
  | nil => rfl
  | cons f fs => exact hcopying (f :: fs)

/-- The script for a program files the findings about it, in their order. -/
theorem filed_examScript : w.filed (w.examScript counter side job exam) =
    (exam.findings w.config counter side job).map (Finding.path w.archive) := by
  rw [examScript, filed_append, filed_drafting fun _ => Exam.plain_drafts, filed_filing,
    List.nil_append]

/-- Outside its directory a worker writes the files of its findings, one after another. -/
theorem filed_script (w : Worker τ) (counter : Nat) (inspections : List Inspection) :
    w.filed (w.script counter inspections) =
      (w.findingsFrom counter inspections).map (Finding.path w.archive) := by
  induction inspections generalizing counter with
  | nil => rfl
  | cons i rest ih =>
    have hreference : w.filed (w.referenceScript counter i) =
        (i.referenceFindings w.config counter).map (Finding.path w.archive) := by
      unfold referenceScript Inspection.referenceFindings
      cases i.reference with
      | none => rfl
      | some exam => exact filed_examScript
    rw [script_cons, findingsFrom_cons]
    change w.filed (w.pairScript counter i ++ w.script (counter + 1) rest) = _
    rw [filed_append, pairScript, filed_append, filed_append, filed_examScript, hreference,
      filed_filing, ih, Inspection.findings, List.map_append, List.map_append, List.map_append]

/-- No two findings of a worker have the same path. -/
theorem nodup_findings_path (w : Worker τ) (pairs : List ProgramPair) (s : τ) :
    ((w.findings pairs s).map (Finding.path w.archive)).Nodup := by
  refine List.pairwise_map.2 ((w.findings_apart pairs s).imp fun hne he => hne ?_)
  exact (Path.joinAll_inj Finding.names_ne_nil Finding.names_ne_nil
    (fun _ => Finding.plain_names) fun _ => Finding.plain_names).1 he

/-- The findings of a worker have names of their own. -/
theorem nodup_findings_names (w : Worker τ) (pairs : List ProgramPair) (s : τ) :
    (((w.findings pairs s).map Finding.file).map Prod.fst).Nodup := by
  rw [List.map_map]
  exact List.pairwise_map.2 (w.findings_apart pairs s)

end Worker

/-! ## Runs -/

namespace Worker

variable {σ : Type} [Disk σ]

/-- The plain loop leaves what the work on its pairs leaves, and ends with a report only if that
does. -/
theorem plain_workThrough (v : Worker σ) (pairs : List ProgramPair) (s : σ) :
    (v.plain pairs s).2 =
      (v.workThrough (pairs.take v.config.limit.toNat) 0 ⟨s, .start v.id⟩).2 ∧
    ∀ report, (v.plain pairs s).1 = .finished report → ∃ report',
      (v.workThrough (pairs.take v.config.limit.toNat) 0 ⟨s, .start v.id⟩).1 = .ok report' := by
  unfold plain plainFrom
  rcases hworked : v.workThrough (pairs.take v.config.limit.toNat) 0 ⟨s, .start v.id⟩ with
    ⟨reason | report', s'⟩
  · refine ⟨rfl, fun report hreport => ?_⟩
    obtain rfl : reason = .finished report := hreport
    exact absurd hworked workThrough_ne_finished
  · exact ⟨rfl, fun _ _ => ⟨report', rfl⟩⟩

end Worker

/-- What a lone worker that minimizes nothing leaves behind, whatever the order of turns is, if it
starts on an empty output directory and no operation on files fails. In the output directory, but
for `temp/`, there are the files of its findings and no others; elsewhere the files are what they
were. Outside its own directory the worker wrote these files, one after another, and each of them
once. If it ended with a report, the findings are those of all the pairs that it took. -/
theorem Session.play_files (w : Worker τ) (pairs : List ProgramPair) (capacity : Nat) {x : τ}
    {turns : List Party} {result : WorkerEnd} {s : Session (Journaled (FileTree × τ))}
    (hmode : w.config.mode = .runOnly) (hwf : t.WellFormed)
    (hroot : t.LeadsTo w.archive.root base)
    (hempty : ∀ place, base <+: place → place ≠ base → t.get? place = none)
    (hplay : (start (w.onDisk FileTree) pairs capacity ⟨(t, x), []⟩).play
      (w.onDisk FileTree) turns = s)
    (hended : s.stage = .ended result) (hsucceeded : s.pipeline.world.Succeeded) :
    (∀ place, base <+: place → ¬ Place.InTemp base place → ∀ text,
      s.pipeline.world.world.1.get? place = some (.file text) ↔
        ∃ f ∈ w.findings pairs x, place = base ++ f.names ∧ text = f.text) ∧
    (∀ place, ¬ base <+: place → ∀ text,
      s.pipeline.world.world.1.get? place = some (.file text) ↔
        t.get? place = some (.file text)) ∧
    w.filed s.pipeline.world.operations =
      (w.findings pairs x).map (Finding.path w.archive) ∧
    ((w.findings pairs x).map (Finding.path w.archive)).Nodup ∧
    ∀ report, result = .finished report → report.consumed = (w.inspections pairs x).length := by
  obtain ⟨hplain, hreport⟩ := (play_plain (w.onDisk FileTree) pairs capacity ⟨(t, x), []⟩).1
    turns result (hplay ▸ hended)
  rw [hplay] at hplain
  obtain ⟨hworld, hfinished⟩ :=
    (w.onDisk FileTree).plain_workThrough pairs ⟨(t, x), []⟩
  rw [← hplain] at hworld hfinished
  dsimp only at hworld hfinished
  rw [hworld] at hsucceeded
  obtain ⟨⟨y, hdid⟩, hlength⟩ := Worker.workThrough_did hmode _ 0 _ hsucceeded
  rw [← hworld] at hdid
  obtain ⟨-, htexts⟩ := script_texts hroot hwf hempty 0 (w.inspections pairs x) (.refl hwf)
    hdid.performs
  refine ⟨fun place hplace hout text => ?_, fun place hplace text => ?_, ?_,
    w.nodup_findings_path pairs x, fun report he => ?_⟩
  · have hnone : t.textAt place = none := by
      by_cases hbase : place = base
      · exact FileTree.textAt_eq_none_of_isDirectory (hbase ▸ hroot.isDirectory hwf)
      · rw [FileTree.textAt, hempty place hplace hbase]
    rw [← FileTree.textAt_eq_some, htexts place hout, overlay_eq_some, hnone]
    · constructor
      · rintro (⟨file, hfile, rfl, rfl⟩ | ⟨-, htext⟩)
        · obtain ⟨f, hf, rfl⟩ := List.mem_map.1 hfile
          exact ⟨f, hf, rfl, rfl⟩
        · cases htext
      · rintro ⟨f, hf, rfl, rfl⟩
        exact .inl ⟨f.file, List.mem_map_of_mem hf, rfl, rfl⟩
    · exact w.nodup_findings_names pairs x
  · have hout : ¬ Place.InTemp base place := fun h => hplace ((List.prefix_append _ _).trans h)
    rw [← FileTree.textAt_eq_some, ← FileTree.textAt_eq_some, htexts place hout,
      overlay_of_forall_ne]
    intro file hfile he
    exact hplace (he ▸ List.prefix_append _ _)
  · rw [hdid.operations_eq]
    exact w.filed_script 0 (w.inspections pairs x)
  · obtain ⟨report', hworked⟩ := hfinished report he
    obtain ⟨hconsumed, -⟩ := hreport report he
    have hcount : (w.inspections pairs x).length = (pairs.take w.config.limit.toNat).length :=
      hlength report' hworked
    rw [hconsumed, hcount, List.length_take]
    rfl

/-- A worker that takes one pair and leaves reference programs alone; its runner crashes. -/
def Worker.crashing : Worker Unit where
  id := none
  config := { WorkerConfig.ofLimit 1 with variantsOnly := true }
  archive := ⟨"out"⟩
  runner :=
    { validate := fun _ s => (true, s)
      run := fun _ s => (.result ⟨.crash, ""⟩, s) }
  comparator := noComparison
  clock _ n := n

/-- The crash is filed by a worker that starts on an empty output directory. -/
theorem Session.play_files_crash :
    let job : ShaderJob := ⟨"", "", ⟨[]⟩⟩
    let s := (start (Worker.crashing.onDisk FileTree) [⟨job, job⟩] 1
      ⟨((⟨[], []⟩ : FileTree).set ["out"] .directory, ()), []⟩).play
        (Worker.crashing.onDisk FileTree) [.producer, .worker, .worker, .worker]
    s.pipeline.world.world.1.get? ["out", "CRASH", "0000variant.json"] =
      some (.file job.encode) := by
  intro job s
  have hrun : s.stage.turnsLeft = 0 ∧ ∀ call ∈ s.pipeline.world.calls, call.succeeded := by
    decide +kernel
  -- from here on the run is not worked out again
  generalize hplay : s = s' at hrun ⊢
  have hended : ∃ result, s'.stage = .ended result := by
    cases hstage : s'.stage with
    | ended result => exact ⟨result, rfl⟩
    | taking | holding =>
      rw [hstage] at hrun
      cases hrun.1
  obtain ⟨result, hended⟩ := hended
  have hwf : ((⟨[], []⟩ : FileTree).set ["out"] .directory).WellFormed := by
    have hroot : (⟨[], []⟩ : FileTree).isDirectory [] := rfl
    have hout : (⟨[], []⟩ : FileTree).isDirectory ([] ++ ["out"]) = false := rfl
    exact FileTree.WellFormed.empty.set hroot hout
  have hroot : ((⟨[], []⟩ : FileTree).set ["out"] .directory).LeadsTo
      Worker.crashing.archive.root ["out"] := by
    unfold FileTree.LeadsTo
    decide +kernel
  have hempty : ∀ place, ["out"] <+: place → place ≠ ["out"] →
      ((⟨[], []⟩ : FileTree).set ["out"] .directory).get? place = none := by
    intro place hplace hne
    have hnil : place ≠ [] := by
      rintro rfl
      exact absurd hplace (by decide)
    rw [FileTree.get?_set (by decide), if_neg hne, FileTree.get?_of_ne_nil hnil]
    rfl
  obtain ⟨hfiles, -⟩ := play_files Worker.crashing [⟨job, job⟩] 1 rfl hwf hroot hempty hplay
    hended hrun.2
  refine (hfiles _ (by decide) (by unfold Place.InTemp; decide) _).2
    ⟨⟨.fault .crash false, 0, .variant, .job, job.encode⟩, ?_, ?_, rfl⟩
  · decide +kernel
  · decide +kernel

end ShaderShrink

import ShaderShrink.Proofs.Disk.Performed
import ShaderShrink.Proofs.Pipeline.Findings
import ShaderShrink.Proofs.Pipeline.Journal
import ShaderShrink.Proofs.Pipeline.Plain

/-!
# What a worker does to files

If no operation on files fails, a worker that minimizes nothing does the operations that its
inspections call for (`Worker.script`): for each pair it empties its directory, writes its drafts
there, and copies from there what there is to file. This holds on each disk
(`Worker.workThrough_did`).
-/

namespace ShaderShrink

variable {σ τ : Type}

/-- The runner beside a disk, which it does not touch. -/
def Runner.beside (runner : Runner τ) (σ : Type) : Runner (σ × τ) where
  validate text := besideDisk (runner.validate text)
  run text := besideDisk (runner.run text)

/-- The worker with its runner and its comparator beside a disk. -/
def Worker.beside (w : Worker τ) (σ : Type) : Worker (σ × τ) where
  id := w.id
  config := w.config
  archive := w.archive
  runner := w.runner.beside σ
  comparator reference variant := besideDisk (w.comparator reference variant)
  clock := w.clock

/-- The worker with its runner beside a disk with a journal. -/
abbrev Worker.onDisk (w : Worker τ) (σ : Type) : Worker (Journaled (σ × τ)) :=
  (w.beside σ).journaled

/-- Whatever follows something else made its calls behind those made before. -/
theorem Desk.FollowsWith.prefix_calls {α : Type} {d : Desk (Journaled σ)} {x : α × Desk σ}
    {y : α × Desk (Journaled σ)} (h : d.FollowsWith x y) :
    d.world.calls <+: y.2.world.calls := by
  obtain ⟨_, _, -, rfl, hcalls⟩ := h
  exact hcalls

/-! ## Scripts -/

/-- The path of the file of a finding. -/
def Finding.path (a : Archive) (f : Finding) : String := Path.joinAll a.root f.names

/-- The texts, by their names, that a worker writes for a program. -/
def Exam.drafts (side : Side) (job : ShaderJob) : Exam → List (String × String)
  | .ran result =>
    [(Document.job.draftName side, job.encode),
      (Document.result.draftName side, result.toJson.pretty)]
  | .invalid | .failed | .died => [(Document.job.draftName side, job.encode)]

namespace Worker

/-- The names that lead from the output directory to the directory of the current pair. -/
def workNames (w : Worker τ) : List String :=
  match w.id with
  | none => ["temp"]
  | some id => ["temp", "worker-" ++ toString id]

/-- The path of a file of the current pair. -/
def draftPath (w : Worker τ) (name : String) : String :=
  Path.joinAll w.archive.root (w.workNames ++ [name])

/-- Writing a text for a program. -/
def drafting (w : Worker τ) (draft : String × String) : DiskOperation :=
  .write (w.draftPath draft.1) draft.2

/-- Copying a finding into the archive. -/
def copying (w : Worker τ) (f : Finding) : DiskOperation :=
  .copy (w.draftPath f.draftName) (f.path w.archive)

/-- Filing findings that belong into one directory. -/
def filing (w : Worker τ) : List Finding → List DiskOperation
  | [] => []
  | f :: rest =>
    .createDirAll (Path.joinAll w.archive.root f.folder.names) :: (f :: rest).map w.copying

/-- What is done to files for a program. -/
def examScript (w : Worker τ) (counter : Nat) (side : Side) (job : ShaderJob) (exam : Exam) :
    List DiskOperation :=
  (exam.drafts side job).map w.drafting ++ w.filing (exam.findings w.config counter side job)

/-- What is done to files for the reference program of a pair. -/
def referenceScript (w : Worker τ) (counter : Nat) (i : Inspection) : List DiskOperation :=
  match i.reference with
  | none => []
  | some exam => w.examScript counter .reference i.pair.reference exam

/-- What is done to files for the programs of a pair. -/
def pairScript (w : Worker τ) (counter : Nat) (i : Inspection) : List DiskOperation :=
  w.examScript counter .variant i.pair.variant i.variant ++ w.referenceScript counter i ++
    w.filing (i.mismatches counter)

/-- What is done to files for some pairs, the first of which has the given number. -/
def script (w : Worker τ) (counter : Nat) (inspections : List Inspection) : List DiskOperation :=
  (inspections.zipIdx counter).flatMap fun i =>
    .removeDirAll w.workDir :: .createDirAll w.workDir :: w.pairScript i.2 i.1

/-- The script for a reference program that was examined is that of the program. -/
theorem referenceScript_some (w : Worker τ) (counter : Nat) (pair : ProgramPair)
    (variant exam : Exam) (differs : Bool) :
    w.referenceScript counter ⟨pair, variant, some exam, differs⟩ =
      w.examScript counter .reference pair.reference exam := rfl

/-- The script for the first pair comes first, behind what empties the directory. -/
theorem script_cons (w : Worker τ) (counter : Nat) (i : Inspection) (rest : List Inspection) :
    w.script counter (i :: rest) =
      .removeDirAll w.workDir :: .createDirAll w.workDir ::
        (w.pairScript counter i ++ w.script (counter + 1) rest) := by
  rw [script, List.zipIdx_cons, List.flatMap_cons, ← script]
  rfl

/-- The directory of the current pair is below the output directory. -/
theorem workDir_eq (w : Worker τ) : w.workDir = Path.joinAll w.archive.root w.workNames := by
  unfold workDir Archive.workDir workNames
  cases w.id <;> rfl

/-- The directory of the current pair is not the output directory. -/
theorem workNames_ne_nil (w : Worker τ) : w.workNames ≠ [] := by
  rw [workNames]
  split <;> nofun

/-- A file in the directory of the current pair has the path of a draft. -/
theorem join_workDir (w : Worker τ) (name : String) :
    Path.join w.workDir name = w.draftPath name := by
  rw [workDir_eq, ← Path.joinAll_concat, draftPath]

/-- The directory of the current pair has plain names. -/
theorem plain_workNames {w : Worker τ} {name : String} (h : name ∈ w.workNames) :
    Path.Plain name := by
  have htemp : Path.Plain "temp" := .of_length (by decide) (by decide)
  rw [workNames] at h
  split at h
  · exact List.mem_singleton.1 h ▸ htemp
  · next id _ =>
    rcases List.mem_pair.1 h with rfl | rfl
    · exact htemp
    · refine .of_length ?_ ?_
      · rw [String.toList_append, List.mem_append, Nat.toString_eq_repr, Nat.toList_repr]
        rintro (hslash | hslash)
        · exact absurd hslash (by decide)
        · exact absurd (Nat.isDigit_of_mem_toDigits (by omega) (by omega) hslash) (by decide)
      · have hlen : "worker-".length = 7 := rfl
        rw [String.length_append]
        omega

/-- The directory of the current pair is `temp/` or inside it. -/
theorem temp_prefix_workNames (w : Worker τ) : ["temp"] <+: w.workNames := by
  rw [workNames]
  cases w.id with
  | none => exact List.prefix_rfl
  | some id => exact ⟨_, rfl⟩

/-- A draft with a plain name has a plain path below the output directory. -/
theorem plain_draft {w : Worker τ} {draft name : String} (hdraft : Path.Plain draft)
    (h : name ∈ w.workNames ++ [draft]) : Path.Plain name := by
  rcases List.mem_append.1 h with h | h
  · exact plain_workNames h
  · exact List.mem_singleton.1 h ▸ hdraft

/-! ## Filing -/

section
variable [Disk σ] {w : Worker τ} {folder : Folder} {counter : Nat} {fs : List Finding}
  {f : Finding} {s s' : Journaled (σ × τ)} {d : Desk (Journaled (σ × τ))} {job : ShaderJob}
  {side : Side} {result : JobResult} {dir : String}

open Journaled (Did did_of_act did_ok_of_act)

/-- If no call has failed, a directory was made and nothing else was done. -/
theorem makeDir_did {result : Except ArchiveError Unit}
    (e : Archive.makeDir dir s = (result, s')) (hs' : s'.Succeeded) :
    result = .ok () ∧ Did [.createDirAll dir] s.world.2 s s' := by
  rcases hmade : Disk.createDirAll dir s with ⟨made, s₁⟩
  rw [Archive.makeDir, hmade] at e
  obtain rfl : s₁ = s' := by cases made <;> exact congrArg Prod.snd e
  obtain ⟨rfl, hdid⟩ := did_ok_of_act (.createDirAll dir) hmade hs' rfl
  exact ⟨(congrArg Prod.fst e).symm, hdid⟩

/-- If no call has failed, a directory was removed and made anew. -/
theorem resetDir_did {result : Except ArchiveError Unit}
    (e : Archive.resetDir dir s = (result, s')) (hs' : s'.Succeeded) :
    result = .ok () ∧ Did [.removeDirAll dir, .createDirAll dir] s.world.2 s s' := by
  rcases hremoved : Disk.removeDirAll dir s with ⟨removed, s₁⟩
  have hmade : Archive.makeDir dir s₁ = (result, s') := by
    rw [Archive.resetDir, hremoved] at e
    rcases removed with cause | _
    · cases cause with
      | notFound => exact e
      | _ =>
        cases e
        obtain ⟨hsucceeded, -⟩ := did_of_act (.removeDirAll dir) hremoved hs'
        rcases DiskCall.eq_of_succeeded hsucceeded with he | ⟨he, -⟩ <;> cases he
    · exact e
  obtain ⟨rfl, hdid₂⟩ := makeDir_did hmade hs'
  have hcalls := (Archive.makeDir_follows dir s₁).prefix_calls
  rw [hmade] at hcalls
  obtain ⟨-, hdid₁⟩ := did_of_act (.removeDirAll dir) hremoved (hs'.of_prefix hcalls)
  rw [hdid₁.beside_eq] at hdid₂
  exact ⟨rfl, hdid₁.trans hdid₂⟩

/-- Copying findings into their directory copies each of them under its name there. -/
theorem copyInto_did {result : Except ArchiveError (List String)}
    (hfs : ∀ f ∈ fs, f.folder = folder ∧ f.counter = counter)
    (e : Archive.copyInto (Path.joinAll w.archive.root folder.names) (counterLabel counter)
      (fs.map fun f => w.draftPath f.draftName) s = (result, s')) (hs' : s'.Succeeded) :
    (∃ targets, result = .ok targets) ∧ Did (fs.map w.copying) s.world.2 s s' := by
  induction fs generalizing s result with
  | nil =>
    cases e
    exact ⟨⟨[], rfl⟩, .refl⟩
  | cons f fs ih =>
    obtain ⟨⟨hfolder, hcounter⟩, hfs⟩ := List.forall_mem_cons.1 hfs
    have hname : Path.fileName? (w.draftPath f.draftName) = some f.draftName :=
      Path.fileName?_joinAll (fun _ => plain_workNames) (f.document.plain_draftName f.side)
    have htarget : Path.join (Path.joinAll w.archive.root folder.names)
        (counterLabel counter ++ f.draftName) = f.path w.archive := by
      rw [← Path.joinAll_concat, ← hfolder, ← hcounter]
      rfl
    rcases hcopied : Disk.copy (w.draftPath f.draftName) (f.path w.archive) s with ⟨copied, s₁⟩
    rcases hrest : Archive.copyInto (Path.joinAll w.archive.root folder.names)
      (counterLabel counter) (fs.map fun f => w.draftPath f.draftName) s₁ with ⟨rest, s₂⟩
    have hcalls := (Archive.copyInto_follows (Path.joinAll w.archive.root folder.names)
      (counterLabel counter) (fs.map fun f => w.draftPath f.draftName) s₁).prefix_calls
    rw [hrest] at hcalls
    simp only [List.map_cons, Archive.copyInto, hname, htarget, hcopied] at e
    cases copied with
    | error cause =>
      cases e
      obtain ⟨he, -⟩ := did_ok_of_act (w.copying f) hcopied hs' rfl
      cases he
    | ok _ =>
      simp only [hrest] at e
      obtain rfl : s₂ = s' := by cases rest <;> exact congrArg Prod.snd e
      obtain ⟨-, hdid₁⟩ :=
        did_ok_of_act (w.copying f) hcopied (hs'.of_prefix hcalls) rfl
      obtain ⟨⟨targets, rfl⟩, hdid₂⟩ := ih hfs hrest
      rw [hdid₁.beside_eq] at hdid₂
      exact ⟨⟨_, (congrArg Prod.fst e).symm⟩, hdid₁.trans hdid₂⟩

/-- Keeping copies of findings files them. -/
theorem keepCopies_did (f : Finding) (fs : List Finding)
    {result : Except ArchiveError (List String)}
    (hfs : ∀ g ∈ f :: fs, g.folder = f.folder ∧ g.counter = f.counter)
    (e : Archive.keepCopies (Path.joinAll w.archive.root f.folder.names) f.counter
      ((f :: fs).map fun f => w.draftPath f.draftName) s = (result, s')) (hs' : s'.Succeeded) :
    (∃ targets, result = .ok targets) ∧ Did (w.filing (f :: fs)) s.world.2 s s' := by
  rcases hmade : Archive.makeDir (Path.joinAll w.archive.root f.folder.names) s with ⟨made, s₁⟩
  rw [Archive.keepCopies, hmade] at e
  cases made with
  | error cause =>
    cases e
    cases (makeDir_did hmade hs').1
  | ok _ =>
  have hcalls := (Archive.copyInto_follows (Path.joinAll w.archive.root f.folder.names)
    (counterLabel f.counter) ((f :: fs).map fun f => w.draftPath f.draftName) s₁).prefix_calls
  dsimp only at e
  rw [e] at hcalls
  obtain ⟨-, hdid₁⟩ := makeDir_did hmade (hs'.of_prefix hcalls)
  obtain ⟨hresult, hdid₂⟩ := copyInto_did hfs e hs'
  rw [hdid₁.beside_eq] at hdid₂
  exact ⟨hresult, hdid₁.trans hdid₂⟩

end

/-! ## One program -/

/-- A program that was run, with its drafts. -/
def drafted (w : Worker τ) (side : Side) (result : JobResult) : RanJob :=
  ⟨result, w.draftPath (Document.job.draftName side), w.draftPath (Document.result.draftName side)⟩

/-- How the work on a program goes for a worker that writes drafts. -/
def execution (w : Worker τ) (side : Side) : Exam → Execution
  | .ran result => .ran (w.drafted side result)
  | .invalid | .failed => .handled
  | .died => .died

/-- What is filed of a program before it could be run. -/
def filedUnrun (w : Worker τ) (counter : Nat) (side : Side) (job : ShaderJob) :
    Exam → List DiskOperation
  | .invalid => w.filing (Exam.invalid.findings w.config counter side job)
  | .failed | .died | .ran _ => []

section
variable [Disk σ] {w : Worker τ} {counter : Nat} {d : Desk (Journaled (σ × τ))} {job : ShaderJob}
  {side : Side} {result : JobResult} {exam : Exam} {s : Journaled (σ × τ)} {x y : τ}

open Journaled (Did did_of_act did_ok_of_act)

/-- If no call has failed, rejecting a program has filed it as invalid. -/
theorem rejectInvalid_did
    (hs' : ((w.onDisk σ).rejectInvalid job counter
      (w.draftPath (Document.job.draftName side)) d).world.Succeeded) :
    Did (w.filing (Exam.invalid.findings w.config counter side job)) d.world.world.2 d.world
      ((w.onDisk σ).rejectInvalid job counter
        (w.draftPath (Document.job.draftName side)) d).world := by
  rcases hkept : Archive.keepCopies w.archive.invalidDir counter
    [w.draftPath (Document.job.draftName side)] d.world with ⟨kept, s₁⟩
  have harchive : (w.onDisk σ).archive = w.archive := rfl
  have hworld : ((w.onDisk σ).rejectInvalid job counter
      (w.draftPath (Document.job.draftName side)) d).world = s₁ := by
    simp only [rejectInvalid, Archive.keepInvalid, harchive, hkept]
    cases kept <;> rfl
  rw [hworld] at hs' ⊢
  exact (keepCopies_did ⟨.invalid, counter, side, .job, job.encode⟩ [] (by simp) hkept hs').2

/-- If a program that is accepted could be run, its result is written. -/
theorem runJob_did (hexam : w.runner.runJob job d.world.world.2 = (exam, x))
    (hs' : ((w.onDisk σ).runJob job counter (w.draftPath (Document.job.draftName side))
      (w.draftPath (Document.result.draftName side)) d).2.world.Succeeded) :
    ((w.onDisk σ).runJob job counter (w.draftPath (Document.job.draftName side))
      (w.draftPath (Document.result.draftName side)) d).1 = w.execution side exam ∧
    Did ((exam.drafts side job).tail.map w.drafting ++ w.filedUnrun counter side job exam) x d.world
      ((w.onDisk σ).runJob job counter (w.draftPath (Document.job.draftName side))
        (w.draftPath (Document.result.draftName side)) d).2.world := by
  have hrun : (w.onDisk σ).runner.run job.encode =
      Journaled.lift (besideDisk (w.runner.run job.encode)) := rfl
  rcases hreply : w.runner.run job.encode d.world.world.2 with ⟨reply, y⟩
  obtain ⟨s₁, hlifted, -, hdid₁⟩ := Journaled.exists_lift_eq hreply
  rw [Runner.runJob, hreply] at hexam
  simp only [runJob, hrun, hlifted] at hs' ⊢
  cases reply with
  | failed | died =>
    cases hexam
    exact ⟨rfl, hdid₁⟩
  | result result =>
    cases hexam
    rcases hwritten : Disk.write (w.draftPath (Document.result.draftName side))
      result.toJson.pretty s₁ with ⟨written, s₂⟩
    have hact : (w.drafting (Document.result.draftName side, result.toJson.pretty)).act s₁ =
        (written, s₂) := hwritten
    dsimp only at hs' ⊢
    rw [hwritten] at hs' ⊢
    have hs₂ : s₂.Succeeded := by cases written <;> exact hs'
    obtain ⟨rfl, hdid₂⟩ := did_ok_of_act _ hact hs₂ rfl
    rw [hdid₁.beside_eq] at hdid₂
    exact ⟨rfl, hdid₁.trans hdid₂⟩

/-- A program is drafted, and if it is not valid it is filed at once. -/
theorem examine_did (counter : Nat) (side : Side)
    (hexam : w.runner.examine job d.world.world.2 = (exam, x))
    (hs' : ((w.onDisk σ).examine job side counter d).2.world.Succeeded) :
    ((w.onDisk σ).examine job side counter d).1 = w.execution side exam ∧
    Did ((exam.drafts side job).map w.drafting ++ w.filedUnrun counter side job exam) x d.world
      ((w.onDisk σ).examine job side counter d).2.world := by
  rcases hwritten : Disk.write (w.draftPath (Document.job.draftName side)) job.encode d.world with
    ⟨written, s₁⟩
  have hact : (w.drafting (Document.job.draftName side, job.encode)).act d.world =
      (written, s₁) := hwritten
  have hjob : Path.join (w.onDisk σ).workDir (side.stem ++ ".json") =
      w.draftPath (Document.job.draftName side) := join_workDir w _
  have hresult : Path.join (w.onDisk σ).workDir (side.stem ++ ".info.json") =
      w.draftPath (Document.result.draftName side) := join_workDir w _
  have hvalidate : (w.onDisk σ).runner.validate job.encode =
      Journaled.lift (besideDisk (w.runner.validate job.encode)) := rfl
  simp only [examine, hjob, hresult, hwritten] at hs' ⊢
  cases written with
  | error cause => cases (did_ok_of_act _ hact hs' rfl).1
  | ok _ =>
  rcases hvalid : w.runner.validate job.encode s₁.world.2 with ⟨valid, y⟩
  obtain ⟨s₂, hlifted, hsame, hdid₂⟩ := Journaled.exists_lift_eq hvalid
  simp only [hvalidate, hlifted] at hs' ⊢
  cases valid with
  | true =>
    have hcalls := (runJob_follows (w.beside σ) job counter
      (w.draftPath (Document.job.draftName side)) (w.draftPath (Document.result.draftName side))
      { d with world := s₂ }).prefix_calls
    obtain ⟨-, hdid₁⟩ := did_ok_of_act _ hact (hs'.of_prefix (hsame ▸ hcalls)) rfl
    rw [← hdid₁.beside_eq, Runner.examine, hvalid] at hexam
    rw [← hdid₂.beside_eq] at hexam
    obtain ⟨hexecution, hdid₃⟩ := runJob_did (d := { d with world := s₂ }) hexam hs'
    refine ⟨hexecution, ?_⟩
    have hdrafts : exam.drafts side job =
        (Document.job.draftName side, job.encode) :: (exam.drafts side job).tail := by
      cases exam <;> rfl
    rw [hdrafts, List.map_cons, List.cons_append]
    exact (hdid₁.trans hdid₂).trans hdid₃
  | false =>
    have hcalls := (rejectInvalid_follows (w.beside σ) job counter
      (w.draftPath (Document.job.draftName side)) { d with world := s₂ }).2
    obtain ⟨-, hdid₁⟩ := did_ok_of_act _ hact (hs'.of_prefix (hsame ▸ hcalls)) rfl
    have hdid₃ := rejectInvalid_did (d := { d with world := s₂ }) hs'
    rw [← hdid₁.beside_eq, Runner.examine, hvalid] at hexam
    cases hexam
    rw [hdid₂.beside_eq] at hdid₃
    exact ⟨rfl, (hdid₁.trans hdid₂).trans hdid₃⟩

/-- A fault is filed. -/
theorem archiveFault_did (side : Side)
    (hs' : ((w.onDisk σ).archiveFault job (w.drafted side result) counter d).world.Succeeded) :
    Did (w.filing ((Exam.ran result).findings w.config counter side job)) d.world.world.2 d.world
      ((w.onDisk σ).archiveFault job (w.drafted side result) counter d).world := by
  have hignored : (w.onDisk σ).isIgnored result = decide (w.config.Knows result) :=
    isIgnored_eq _ result
  have hstatus : (w.drafted side result).result = result := rfl
  rcases hkept : (w.onDisk σ).archive.keepFault result.status (decide (w.config.Knows result))
    counter (w.drafted side result).artifacts d.world with ⟨kept, s₁⟩
  have hworld : ((w.onDisk σ).archiveFault job (w.drafted side result) counter d).world =
      if result.status.isFault then s₁ else d.world := by
    simp only [archiveFault, hstatus, hignored, hkept]
    split
    · cases kept <;> rfl
    · rfl
  rw [hworld] at hs' ⊢
  rw [Exam.findings]
  by_cases hfault : result.status.isFault = true
  · rw [if_pos hfault] at hs'
    rw [if_pos hfault, if_pos hfault]
    have hdir : w.archive.faultDir result.status (decide (w.config.Knows result)) =
        Path.joinAll w.archive.root
          (Folder.fault result.status (decide (w.config.Knows result))).names := by
      unfold Archive.faultDir Folder.names
      cases decide (w.config.Knows result) <;> rfl
    have hkept' : Archive.keepCopies (w.archive.faultDir _ _) counter _ d.world = (kept, s₁) :=
      hkept
    rw [hdir] at hkept'
    exact (keepCopies_did
      ⟨.fault result.status (decide (w.config.Knows result)), counter, side, .job, job.encode⟩
      [⟨_, counter, side, .result, result.toJson.pretty⟩] (by simp) hkept' hs').2
  · rw [if_neg hfault, if_neg hfault]
    exact .refl

/-! ## Pairs -/

variable {pair : ProgramPair} {reference variant : JobResult} {outcome : ComparisonOutcome}
  {i : Inspection}

/-- A mismatch is filed. -/
theorem archiveMismatch_did
    (hcompared : w.comparator reference variant d.world.world.2 = (outcome, x))
    (hi : i = ⟨pair, .ran variant, some (.ran reference), outcome.isMismatch⟩)
    (hs' : ((w.onDisk σ).archiveMismatch pair (w.drafted .reference reference)
      (w.drafted .variant variant) counter d).world.Succeeded) :
    Did (w.filing (i.mismatches counter)) x d.world
      ((w.onDisk σ).archiveMismatch pair (w.drafted .reference reference)
        (w.drafted .variant variant) counter d).world := by
  subst hi
  have hcomparator : (w.onDisk σ).comparator reference variant =
      Journaled.lift (besideDisk (w.comparator reference variant)) := rfl
  have hresults : (w.drafted .reference reference).result = reference ∧
      (w.drafted .variant variant).result = variant := ⟨rfl, rfl⟩
  obtain ⟨s₁, hlifted, -, hdid₁⟩ := Journaled.exists_lift_eq hcompared
  rcases hkept : (w.onDisk σ).archive.keepMismatch counter
    ((w.drafted .reference reference).artifacts ++ (w.drafted .variant variant).artifacts)
    s₁ with ⟨kept, s₂⟩
  simp only [archiveMismatch, hresults, hcomparator, hlifted] at hs' ⊢
  cases outcome with
  | consistent | unsupported => exact hdid₁
  | mismatch detail =>
    simp only [hkept] at hs' ⊢
    have hs₂ : s₂.Succeeded := by cases kept <;> exact hs'
    have hdid₂ := (keepCopies_did (w := w)
      ⟨.mismatch, counter, .reference, .job, pair.reference.encode⟩
      [⟨.mismatch, counter, .reference, .result, reference.toJson.pretty⟩,
        ⟨.mismatch, counter, .variant, .job, pair.variant.encode⟩,
        ⟨.mismatch, counter, .variant, .result, variant.toJson.pretty⟩] (by simp) hkept hs₂).2
    rw [hdid₁.beside_eq] at hdid₂
    have hdid := hdid₁.trans hdid₂
    cases kept <;> exact hdid

/-- For a program that ran, both drafts are written before anything is filed. -/
theorem examScript_ran : w.examScript counter side job (.ran result) =
    ((Exam.ran result).drafts side job).map w.drafting ++
      w.filedUnrun counter side job (.ran result) ++
      w.filing ((Exam.ran result).findings w.config counter side job) := by
  rw [filedUnrun, List.append_nil, examScript]

/-- For a program that did not run, its draft is written, and it is filed if the program is
invalid. -/
theorem examScript_unrun (h : ∀ result, exam ≠ .ran result) :
    w.examScript counter side job exam =
      (exam.drafts side job).map w.drafting ++ w.filedUnrun counter side job exam := by
  cases exam with
  | ran result => exact absurd rfl (h result)
  | invalid | failed | died => rfl

/-- The inspection of a reference program does not change what is known of the variant. -/
theorem eq_of_inspectReference (h : w.inspectReference pair variant y = (i, x)) :
    i.pair = pair ∧ i.variant = .ran variant := by
  unfold inspectReference at h
  split at h <;> cases h <;> exact ⟨rfl, rfl⟩

/-- The work on a reference program files it and the mismatch. -/
theorem workOnReference_did (hi : w.inspectReference pair variant d.world.world.2 = (i, x))
    (hs' : ((w.onDisk σ).workOnReference pair (w.drafted .variant variant) counter
      d).2.world.Succeeded) :
    ((w.onDisk σ).workOnReference pair (w.drafted .variant variant) counter d).1 =
      (if i.died then .died else .fit) ∧
    Did (w.referenceScript counter i ++ w.filing (i.mismatches counter)) x d.world
      ((w.onDisk σ).workOnReference pair (w.drafted .variant variant) counter d).2.world := by
  rcases hexam : w.runner.examine pair.reference d.world.world.2 with ⟨exam, y⟩
  rcases he : (w.onDisk σ).examine pair.reference .reference counter d with ⟨execution, d₁⟩
  have hexamined := examine_did counter .reference hexam
  rw [he] at hexamined
  simp only [workOnReference, he] at hs' ⊢
  have hs₁ : d₁.world.Succeeded := by
    cases execution with
    | died | handled => exact hs'
    | ran executed =>
      have hfault := (archiveFault_follows (w.beside σ) pair.reference executed counter d₁).2
      have hmismatch := (archiveMismatch_follows (w.beside σ) pair executed
        (w.drafted .variant variant) counter
        ((w.onDisk σ).archiveFault pair.reference executed counter d₁)).2
      exact hs'.of_prefix (hfault.trans hmismatch)
  obtain ⟨hexecution, hdid₁⟩ := hexamined hs₁
  subst hexecution
  rw [inspectReference, hexam] at hi
  cases exam with
  | ran result =>
    rcases hcompared : w.comparator result variant y with ⟨outcome, z⟩
    simp only [hcompared] at hi
    obtain ⟨rfl, rfl⟩ := Prod.mk.inj hi
    have hmismatch := (archiveMismatch_follows (w.beside σ) pair (w.drafted .reference result)
      (w.drafted .variant variant) counter
      ((w.onDisk σ).archiveFault pair.reference (w.drafted .reference result) counter d₁)).2
    have hdid₂ := archiveFault_did .reference (hs'.of_prefix hmismatch)
    rw [hdid₁.beside_eq] at hdid₂
    rw [← hdid₂.beside_eq] at hcompared
    have hdid₃ := archiveMismatch_did hcompared rfl hs'
    rw [referenceScript_some, examScript_ran]
    exact ⟨rfl, (hdid₁.trans hdid₂).trans hdid₃⟩
  | invalid | failed | died =>
    cases hi
    rw [referenceScript_some, examScript_unrun, Inspection.mismatches, filing, List.append_nil]
    · exact ⟨rfl, hdid₁⟩
    · intro result hran
      cases hran

/-- A worker that only runs programs minimizes none. -/
theorem reduceIfWanted_runOnly (hmode : w.config.mode = .runOnly) :
    (w.onDisk σ).reduceIfWanted job result counter d = (.fit, d) := by
  have hconfig : (w.onDisk σ).config = w.config := rfl
  rw [reduceIfWanted, hconfig, hmode, if_neg (fun h => nomatch h.1)]

/-- If the reference program is left alone, only the variant is to be filed. -/
theorem pairScript_none : w.pairScript counter ⟨pair, exam, none, false⟩ =
    w.examScript counter .variant pair.variant exam := by
  have hmismatches : (⟨pair, exam, none, false⟩ : Inspection).mismatches counter = [] := by
    cases exam <;> rfl
  rw [pairScript, referenceScript, hmismatches, filing, List.append_nil, List.append_nil]

/-- The work on a pair is that on its programs. -/
theorem workOn_did (counter : Nat) (hmode : w.config.mode = .runOnly)
    (hi : w.inspect pair d.world.world.2 = (i, x))
    (hs' : ((w.onDisk σ).workOn pair counter d).2.world.Succeeded) :
    ((w.onDisk σ).workOn pair counter d).1 = (if i.died then .died else .fit) ∧
    Did (w.pairScript counter i) x d.world ((w.onDisk σ).workOn pair counter d).2.world := by
  rcases hexam : w.runner.examine pair.variant d.world.world.2 with ⟨exam, y⟩
  rcases he : (w.onDisk σ).examine pair.variant .variant counter d with ⟨execution, d₁⟩
  have hexamined := examine_did counter .variant hexam
  have hconfig : (w.onDisk σ).config = w.config := rfl
  rw [he] at hexamined
  simp only [workOn, he, reduceIfWanted_runOnly hmode, hconfig] at hs' ⊢
  have hs₁ : d₁.world.Succeeded := by
    cases execution with
    | died | handled => exact hs'
    | ran executed =>
      have hfault := (archiveFault_follows (w.beside σ) pair.variant executed counter d₁).2
      dsimp only at hs'
      split at hs'
      · exact hs'.of_prefix hfault
      · have hreference := (workOnReference_follows (w.beside σ) pair executed counter
          ((w.onDisk σ).archiveFault pair.variant executed counter d₁)).prefix_calls
        exact hs'.of_prefix (hfault.trans hreference)
  obtain ⟨hexecution, hdid₁⟩ := hexamined hs₁
  subst hexecution
  rw [inspect, hexam] at hi
  cases exam with
  | ran result =>
    dsimp only [execution] at hs' hi ⊢
    by_cases hvariants : w.config.variantsOnly = true
    · rw [if_pos hvariants] at hi hs'
      rw [if_pos hvariants]
      cases hi
      have hdid₂ := archiveFault_did .variant hs'
      rw [hdid₁.beside_eq] at hdid₂
      rw [pairScript_none, examScript_ran]
      exact ⟨rfl, hdid₁.trans hdid₂⟩
    · rw [if_neg hvariants] at hi hs'
      rw [if_neg hvariants]
      obtain ⟨hpair, hvariant⟩ := eq_of_inspectReference hi
      have hreference := (workOnReference_follows (w.beside σ) pair (w.drafted .variant result)
        counter ((w.onDisk σ).archiveFault pair.variant (w.drafted .variant result) counter
          d₁)).prefix_calls
      have hdid₂ := archiveFault_did .variant (hs'.of_prefix hreference)
      rw [hdid₁.beside_eq] at hdid₂
      rw [← hdid₂.beside_eq] at hi
      obtain ⟨hcondition, hdid₃⟩ := workOnReference_did hi hs'
      refine ⟨hcondition, ?_⟩
      rw [pairScript, hpair, hvariant, examScript_ran, List.append_assoc _ (w.referenceScript _ _)]
      exact (hdid₁.trans hdid₂).trans hdid₃
  | invalid | failed | died =>
    cases hi
    rw [pairScript_none, examScript_unrun]
    · exact ⟨rfl, hdid₁⟩
    · intro result hran
      cases hran

/-! ## All pairs -/

/-- Working through pairs keeps the calls made before. -/
theorem workThrough_calls (v : Worker (σ × τ)) (pairs : List ProgramPair) (counter : Nat)
    (d : Desk (Journaled (σ × τ))) :
    d.world.calls <+: (v.journaled.workThrough pairs counter d).2.calls := by
  induction pairs generalizing counter d with
  | nil => exact List.prefix_rfl
  | cons pair rest ih =>
    have hreset := (Archive.resetDir_follows v.journaled.workDir d.world).prefix_calls
    rw [workThrough]
    rcases he : Archive.resetDir v.journaled.workDir d.world with ⟨_ | _, s₁⟩
    · rw [he] at hreset
      exact hreset
    · rw [he] at hreset
      dsimp only
      generalize hd₁ : (⟨s₁, _⟩ : Desk (Journaled (σ × τ))) = d₁
      obtain rfl : d₁.world = s₁ := (congrArg Desk.world hd₁).symm
      have hworked := (workOn_follows v pair counter d₁).prefix_calls
      rcases he' : v.journaled.workOn pair counter d₁ with ⟨_ | _, d₂⟩
      · rw [he'] at hworked
        exact (hreset.trans hworked).trans (ih _ _)
      · rw [he'] at hworked
        exact hreset.trans hworked

/-- The work on some pairs is the script of their inspections. It ends with a report only if all of
them were inspected. -/
theorem workThrough_did (hmode : w.config.mode = .runOnly) (pairs : List ProgramPair)
    (counter : Nat) (d : Desk (Journaled (σ × τ)))
    (hs' : ((w.onDisk σ).workThrough pairs counter d).2.Succeeded) :
    (∃ x, Did (w.script counter (w.inspectAll pairs d.world.world.2)) x d.world
      ((w.onDisk σ).workThrough pairs counter d).2) ∧
    ∀ report, ((w.onDisk σ).workThrough pairs counter d).1 = .ok report →
      (w.inspectAll pairs d.world.world.2).length = pairs.length := by
  induction pairs generalizing counter d with
  | nil => exact ⟨⟨_, .refl⟩, fun _ _ => rfl⟩
  | cons pair rest ih =>
    rw [workThrough] at hs' ⊢
    rcases hreset : Archive.resetDir (w.onDisk σ).workDir d.world with ⟨cleared, s₁⟩
    rw [hreset] at hs'
    cases cleared with
    | error cause => cases (resetDir_did hreset hs').1
    | ok _ =>
    dsimp only at hs' ⊢
    generalize hd₁ : (⟨s₁, _⟩ : Desk (Journaled (σ × τ))) = d₁ at hs' ⊢
    obtain rfl : d₁.world = s₁ := (congrArg Desk.world hd₁).symm
    have hworked := (workOn_follows (w.beside σ) pair counter d₁).prefix_calls
    rcases hi : w.inspect pair d₁.world.world.2 with ⟨i, x⟩
    have hpair := workOn_did counter hmode hi
    rcases he : (w.onDisk σ).workOn pair counter d₁ with ⟨condition, d₂⟩
    rw [he] at hs' hpair hworked
    have hs₂ : d₂.world.Succeeded := by
      cases condition with
      | died => exact hs'
      | fit => exact hs'.of_prefix (workThrough_calls _ rest (counter + 1) d₂)
    obtain ⟨-, hdid₁⟩ := resetDir_did hreset (hs₂.of_prefix hworked)
    obtain ⟨hcondition, hdid₂⟩ := hpair hs₂
    subst hcondition
    rw [← hdid₁.beside_eq, inspectAll, hi, script_cons]
    have hdid := hdid₁.trans hdid₂
    by_cases hdied : i.died = true
    · simp only [hdied, if_true]
      refine ⟨⟨x, ?_⟩, fun report hreport => by cases hreport⟩
      have hnil : w.script (counter + 1) [] = [] := rfl
      rw [hnil, List.append_nil]
      exact hdid
    · simp only [hdied, Bool.false_eq_true, if_false] at hs' ⊢
      obtain ⟨⟨y, hdid₃⟩, hlength⟩ := ih (counter + 1) d₂ hs'
      rw [hdid₂.beside_eq] at hdid₃ hlength
      refine ⟨⟨y, hdid.trans hdid₃⟩, fun report hreport => ?_⟩
      rw [List.length_cons, List.length_cons, hlength report hreport]

end

end Worker

end ShaderShrink

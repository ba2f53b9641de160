import ShaderShrink.Proofs.Archive.Names
import ShaderShrink.Proofs.Disk.Changes

/-!
# Filing reductions in file trees

A file that is written whole changes only what has its name, and the name of its temporary file, in
its directory (`Archive.writeWhole_confined`). From this follows what filing a minimized job leaves
behind: its files with their texts, and nothing new or changed outside the directory for the status
(`Archive.keepReduction_inside`), and that no job overwrites the files of another one
(`Archive.keepReduction_apart`). Both ask that the names of jobs do not lead elsewhere.
-/

namespace ShaderShrink.Archive

open FileTree (Confined)

variable {t t' t'' : FileTree} {a : Archive} {status : JobStatus} {counter c₁ c₂ : Nat}
  {job job₁ job₂ : ShaderJob} {report report₁ report₂ : ReductionReport}
  {dir name text path : String} {names paths : List String} {files : List (String × String)}
  {place : Place}

/-! ## Files in a directory -/

/-- A path leads to a file with the given text, which has the given name in a directory. -/
def FiledAt (t : FileTree) (dir name text : String) : Prop :=
  ∃ place, t.locate dir = .ok (.existing place .directory) ∧
    t.locate (dir ++ "/" ++ name) = .ok (.existing (place ++ [name]) (.file text))

/-- A file stays as it is when others are filed in the same directory. -/
theorem FiledAt.confined (h : FiledAt t dir name text) (hc : Confined dir names t t')
    (hn : Path.Plain name) (hname : name ∉ names) : FiledAt t' dir name text := by
  obtain ⟨place, hl, hf⟩ := h
  exact ⟨place, hc.locate_directory hl, hc.locate_file hname hn hl hf⟩

/-- Making a directory changes nothing else, and it is there if nothing failed. -/
theorem makeDir_confined {result : Except ArchiveError Unit} (names : List String)
    (h : t.WellFormed) (e : makeDir dir t = (result, t')) :
    Confined dir names t t' ∧ (result = .ok () → dir ≠ "" → t'.isDir dir) := by
  rw [makeDir] at e
  split at e
  · next hmade =>
    cases e
    obtain ⟨hc, hd⟩ := FileTree.createDirAll_confined names h hmade
    exact ⟨hc, fun _ => hd rfl⟩
  · next hmade =>
    cases e
    exact (FileTree.createDirAll_confined names h hmade).1.failed

/-- The temporary name of a plain name is plain. -/
theorem plain_temporaryPath (h : Path.Plain name) : Path.Plain (temporaryPath name) := by
  have hlen : ".tmp".length = 4 := rfl
  refine .of_length (by simpa [temporaryPath] using h.no_slash) ?_
  rw [temporaryPath, String.length_append]
  omega

/-- Filing a text whole changes nothing but the file and its temporary file. -/
theorem writeWhole_confined {result : Except ArchiveError Unit} (h : t.WellFormed) (hdir : dir ≠ "")
    (hparent : Path.parent? (dir ++ "/" ++ name) = some dir) (hn : Path.Plain name)
    (hname : withTemporary [name] ⊆ names)
    (e : writeWhole (dir ++ "/" ++ name) text t = (result, t')) :
    Confined dir names t t' ∧ (result = .ok () → FiledAt t' dir name text) := by
  have hname' : name ∈ names := hname (mem_withTemporary (List.mem_singleton_self _))
  have htemporary : temporaryPath name ∈ names :=
    hname (temporaryPath_mem_withTemporary (List.mem_singleton_self _))
  have hplain := plain_temporaryPath hn
  simp only [writeWhole, hparent, temporaryPath_append] at e
  split at e
  · next hmade =>
    cases e
    exact (makeDir_confined names h hmade).1.failed
  next t₁ hmade =>
    obtain ⟨hc₁, hd⟩ := makeDir_confined names h hmade
    obtain ⟨place, hl⟩ := (FileTree.isDir_iff hc₁.wellFormed).1 (hd rfl hdir)
    split at e
    · next hwritten =>
      cases e
      have hc₂ := (FileTree.write_confined hc₁.wellFormed hl hplain htemporary hwritten).1
      exact (hc₁.trans hc₂).failed
    next t₂ hwritten =>
      obtain ⟨hc₂, hf⟩ := FileTree.write_confined hc₁.wellFormed hl hplain htemporary hwritten
      have hl₂ := hc₂.locate_directory hl
      rcases hmoved : Disk.rename (dir ++ "/" ++ temporaryPath name) (dir ++ "/" ++ name) t₂ with
        ⟨moved, t₃⟩
      obtain ⟨hc₃, hf₃⟩ := FileTree.rename_confined hc₂.wellFormed hl₂ hplain hn htemporary hname'
        (hf rfl) hmoved
      rw [hmoved] at e
      cases moved with
      | error e' =>
        cases e
        exact ((hc₁.trans hc₂).trans hc₃).failed
      | ok _ =>
        cases e
        exact ⟨(hc₁.trans hc₂).trans hc₃, fun _ => ⟨place, hc₃.locate_directory hl₂, hf₃ rfl⟩⟩

/-- Filing texts changes nothing but their files and temporary files, and leaves all of the files
behind if it succeeds. -/
theorem writeAll_confined {result : Except ArchiveError (List String)} (h : t.WellFormed)
    (hdir : dir ≠ "")
    (hfiles : ∀ f ∈ files, Path.Plain f.1 ∧ Path.parent? (dir ++ "/" ++ f.1) = some dir)
    (hapart : files.Pairwise fun f g => f.1 ∉ withTemporary [g.1])
    (e : writeAll (filesIn dir files) t = (result, t')) :
    Confined dir (withTemporary (files.map Prod.fst)) t t' ∧
      ∀ paths, result = .ok paths → paths = (filesIn dir files).map Prod.fst ∧
        ∀ f ∈ files, FiledAt t' dir f.1 f.2 := by
  induction files generalizing t t' result with
  | nil =>
    cases e
    exact ⟨.refl h, fun paths he => ⟨(Except.ok.inj he).symm, List.forall_mem_nil _⟩⟩
  | cons f files ih =>
    obtain ⟨hfirst, hrest⟩ := List.pairwise_cons.1 hapart
    obtain ⟨⟨hn, hparent⟩, hfiles⟩ := List.forall_mem_cons.1 hfiles
    have hsub : withTemporary [f.1] ⊆ withTemporary ((f :: files).map Prod.fst) := by
      simp [withTemporary]
    have hsub' :
        withTemporary (files.map Prod.fst) ⊆ withTemporary ((f :: files).map Prod.fst) := by
      simp [withTemporary]
    simp only [filesIn, List.map_cons, writeAll] at e
    split at e
    · next hwritten =>
      cases e
      exact ⟨(writeWhole_confined h hdir hparent hn hsub hwritten).1, fun _ hr => by cases hr⟩
    next t₁ hwritten =>
      obtain ⟨hc, hf⟩ := writeWhole_confined h hdir hparent hn hsub hwritten
      split at e
      · next hmore =>
        cases e
        have hc' := (ih hc.wellFormed hfiles hrest hmore).1
        exact ⟨hc.trans (hc'.mono hsub'), fun _ hr => by cases hr⟩
      · next more t₂ hmore =>
        cases e
        obtain ⟨hc', hpaths⟩ := ih hc.wellFormed hfiles hrest hmore
        obtain ⟨rfl, hall⟩ := hpaths _ rfl
        refine ⟨hc.trans (hc'.mono hsub'), fun paths he => ⟨(Except.ok.inj he).symm, ?_⟩⟩
        refine List.forall_mem_cons.2 ⟨(hf rfl).confined hc' hn fun hm => ?_, hall⟩
        obtain ⟨other, hother, hm⟩ := List.mem_flatMap.1 hm
        obtain ⟨g, hg, rfl⟩ := List.mem_map.1 hother
        exact hfirst g hg (List.mem_flatMap.2 ⟨g.1, List.mem_singleton_self _, hm⟩)

/-! ## Minimized jobs -/

/-- The names of a reduction are plain if the name of its job has no slash. -/
theorem plain_of_mem_reductionNames (h : '/' ∉ job.name.toList)
    (hname : name ∈ reductionNames counter job) : Path.Plain name := by
  obtain ⟨ending, hending, rfl⟩ := List.mem_map.1 hname
  have hplain : ∀ ending ∈ [".json", ".frag", ".reduction.json"],
      '/' ∉ ending.toList ∧ 3 ≤ ending.length := by decide
  obtain ⟨hslash, hlen⟩ := hplain ending hending
  refine .of_length ?_ ?_
  · simp only [reductionName, String.toList_append, List.mem_append, not_or]
    exact ⟨⟨no_slash_counterLabel, h⟩, hslash⟩
  · rw [reductionName, String.length_append]
    omega

/-- The directory for reductions has a path. -/
theorem reducedDir_ne_empty : a.reducedDir status ≠ "" := by
  obtain ⟨base, hbase⟩ := exists_reducedDir_eq a status
  simp [hbase]

/-- What filing a minimized job changes, and what it leaves behind. -/
theorem keepReduction_confined {result : Except ArchiveError (List String)} (h : t.WellFormed)
    (hname : '/' ∉ job.name.toList)
    (e : a.keepReduction status counter job report t = (result, t')) :
    Confined (a.reducedDir status) (withTemporary (reductionNames counter job)) t t' ∧
      ∀ paths, result = .ok paths →
        paths = (a.reductionFiles status counter job report).map Prod.fst ∧
        ∀ f ∈ reductionTexts counter job report, FiledAt t' (a.reducedDir status) f.1 f.2 := by
  rw [keepReduction, reductionFiles_eq] at e
  have hfiles : ∀ f ∈ reductionTexts counter job report, Path.Plain f.1 ∧
      Path.parent? (a.reducedDir status ++ "/" ++ f.1) = some (a.reducedDir status) := by
    intro f hf
    have hplain := plain_of_mem_reductionNames hname (fst_mem_reductionNames hf)
    exact ⟨hplain, parent?_reducedDir hplain⟩
  have hapart : (reductionTexts counter job report).Pairwise fun f g =>
      f.1 ∉ withTemporary [g.1] := by
    simp [reductionTexts, withTemporary, temporaryPath, reductionName, String.append_assoc,
      String.append_right_inj]
  rw [reductionFiles_eq, ← reductionTexts_names counter job report]
  exact writeAll_confined h reducedDir_ne_empty hfiles hapart e

/-- Filing a job whose name has no slash changes nothing outside the directory for its status but
that directories on the way there are made. If it succeeds, then the three files are directly in
this directory, under names that start with the label of the number. -/
theorem keepReduction_inside {result : Except ArchiveError (List String)} (h : t.WellFormed)
    (hname : '/' ∉ job.name.toList)
    (e : a.keepReduction status counter job report t = (result, t')) :
    (∀ place, t'.get? place ≠ t.get? place →
      (t.get? place = none ∧ t'.isDirectory place ∧ t'.LeadsThrough (a.reducedDir status) place) ∨
      ∃ dir name, t'.locate (a.reducedDir status) = .ok (.existing dir .directory) ∧
        place = dir ++ [name] ∧ (counterLabel counter).toList <+: name.toList) ∧
    ∀ paths, result = .ok paths →
      paths = (a.reductionFiles status counter job report).map Prod.fst ∧
      ∃ dir, t'.locate (a.reducedDir status) = .ok (.existing dir .directory) ∧
        ∀ file ∈ a.reductionFiles status counter job report, ∃ name,
          (counterLabel counter).toList <+: name.toList ∧
          file.1 = a.reducedDir status ++ "/" ++ name ∧
          t'.locate file.1 = .ok (.existing (dir ++ [name]) (.file file.2)) := by
  obtain ⟨hc, hpaths⟩ := keepReduction_confined h hname e
  refine ⟨fun place hplace => ?_, fun paths he => ?_⟩
  · cases hc.allowed place with
    | same heq => exact absurd heq hplace
    | made hnone hdir hleads => exact .inl ⟨hnone, hdir, hleads⟩
    | filed hmem hat hdir hl => exact .inr ⟨_, _, hl, hat, label_prefix_of_mem hmem⟩
  · obtain ⟨hpaths, hfiled⟩ := hpaths paths he
    obtain ⟨dir, hl, -⟩ := hfiled _ List.mem_cons_self
    refine ⟨hpaths, dir, hl, fun file hfile => ?_⟩
    rw [reductionFiles_eq] at hfile
    obtain ⟨f, hf, rfl⟩ := List.mem_map.1 hfile
    have hlabel := label_prefix_of_mem (mem_withTemporary (fst_mem_reductionNames hf))
    obtain ⟨dir', hl', hlocate⟩ := hfiled f hf
    cases hl.symm.trans hl'
    exact ⟨f.1, hlabel, rfl, hlocate⟩

/-- A job is filed in an empty tree. -/
theorem keepReduction_inside_empty : ∃ filed dir,
    (⟨"out"⟩ : Archive).keepReduction .crash 0 ⟨"job", "glsl", ⟨[]⟩⟩ default (⟨[], []⟩ : FileTree) =
      filed ∧
    filed.1 = .ok ["out/REDUCED/CRASH/0000job.json", "out/REDUCED/CRASH/0000job.frag",
      "out/REDUCED/CRASH/0000job.reduction.json"] ∧
    filed.2.locate ((⟨"out"⟩ : Archive).reducedDir .crash) = .ok (.existing dir .directory) := by
  have hpaths : ((⟨"out"⟩ : Archive).keepReduction .crash 0 ⟨"job", "glsl", ⟨[]⟩⟩ default
      (⟨[], []⟩ : FileTree)).1 = .ok ["out/REDUCED/CRASH/0000job.json",
        "out/REDUCED/CRASH/0000job.frag", "out/REDUCED/CRASH/0000job.reduction.json"] := by
    decide +kernel
  -- from here on what was filed is not worked out again
  generalize hf : (⟨"out"⟩ : Archive).keepReduction .crash 0 ⟨"job", "glsl", ⟨[]⟩⟩ default
    (⟨[], []⟩ : FileTree) = filed at hpaths
  have h := keepReduction_inside .empty (by decide) (hf.trans (Prod.eta filed).symm)
  obtain ⟨-, dir, hdir, -⟩ := h.2 _ hpaths
  exact ⟨filed, dir, rfl, hpaths, hdir⟩

/-- The file of a job whose name leads back up is not in the directory for its status. -/
theorem keepReduction_outside :
    let job : ShaderJob := ⟨"/../../escaped", "glsl-310es", ⟨[.function "void" "main" [] []]⟩⟩
    let filed := (⟨"out"⟩ : Archive).keepReduction .crash 0 job default (⟨[], []⟩ : FileTree)
    filed.1 = .ok ["out/REDUCED/CRASH/0000/../../escaped.json",
      "out/REDUCED/CRASH/0000/../../escaped.frag",
      "out/REDUCED/CRASH/0000/../../escaped.reduction.json"] ∧
    filed.2.locate "out/REDUCED/CRASH" = .ok (.existing ["out", "REDUCED", "CRASH"] .directory) ∧
    filed.2.get? ["out", "REDUCED", "escaped.json"] = some (.file job.encode) := by
  decide +kernel

/-! ## Several jobs -/

/-- A file that was filed can be read. -/
theorem FiledAt.read_eq (h : FiledAt t dir name text) :
    Disk.read (dir ++ "/" ++ name) t = .ok text := by
  obtain ⟨place, -, hf⟩ := h
  change (t.fileAt _).map Prod.snd = _
  simp [FileTree.fileAt, hf, Except.map]

/-- Filing minimized jobs with different numbers writes to different paths, so the files of a job
are still there when another one was filed, unless the name of the job with the shorter label starts
with a digit. -/
theorem keepReduction_apart (hc : c₁ ≠ c₂)
    (h₁ : (counterLabel c₁).length < (counterLabel c₂).length → startsWithDigit job₁.name = false)
    (h₂ : (counterLabel c₂).length < (counterLabel c₁).length → startsWithDigit job₂.name = false) :
    List.Disjoint (a.reductionTargets status c₁ job₁ report₁)
      (a.reductionTargets status c₂ job₂ report₂) ∧
    ∀ (t t' t'' : FileTree) paths result, t.WellFormed →
      '/' ∉ job₁.name.toList → '/' ∉ job₂.name.toList →
      a.keepReduction status c₁ job₁ report₁ t = (.ok paths, t') →
      a.keepReduction status c₂ job₂ report₂ t' = (result, t'') →
      ∀ file ∈ a.reductionFiles status c₁ job₁ report₁, Disk.read file.1 t'' = .ok file.2 := by
  have hnames := disjoint_reductionNames hc h₁ h₂
  constructor
  · rw [reductionTargets_eq, reductionTargets_eq]
    intro path hp₁ hp₂
    obtain ⟨n₁, hn₁, rfl⟩ := List.mem_map.1 hp₁
    obtain ⟨n₂, hn₂, heq⟩ := List.mem_map.1 hp₂
    rw [String.append_right_inj] at heq
    exact hnames hn₁ (heq ▸ hn₂)
  · intro t t' t'' paths result h hj₁ hj₂ e₁ e₂ file hfile
    obtain ⟨hfirst, hpaths⟩ := keepReduction_confined h hj₁ e₁
    obtain ⟨hsecond, -⟩ := keepReduction_confined hfirst.wellFormed hj₂ e₂
    rw [reductionFiles_eq] at hfile
    obtain ⟨f, hf, rfl⟩ := List.mem_map.1 hfile
    have hmem := fst_mem_reductionNames hf
    have hother : f.1 ∉ withTemporary (reductionNames c₂ job₂) := hnames (mem_withTemporary hmem)
    have hfiled := (hpaths _ rfl).2 f hf
    exact (hfiled.confined hsecond (plain_of_mem_reductionNames hj₁ hmem) hother).read_eq

/-- The label of 10000 is longer than that of 9999. -/
theorem keepReduction_apart_longer :
    List.Disjoint
      ((⟨"out"⟩ : Archive).reductionTargets .crash 9999 ⟨"x", "glsl-310es", ⟨[]⟩⟩ default)
      ((⟨"out"⟩ : Archive).reductionTargets .crash 10000 ⟨"0x", "glsl-310es", ⟨[]⟩⟩ default) :=
  (keepReduction_apart (by decide) (fun _ => by decide) (fun h => absurd h (by decide))).1

/-- A name that starts with a digit makes up for the shorter label of its number: the second job is
filed over the first one. -/
theorem keepReduction_shared :
    let job₁ : ShaderJob := ⟨"0x", "glsl-310es", ⟨[.function "void" "main" [] []]⟩⟩
    let job₂ : ShaderJob := ⟨"x", "glsl-310es", ⟨[.function "void" "main" [] []]⟩⟩
    let first := (⟨"out"⟩ : Archive).keepReduction .crash 1000 job₁ default (⟨[], []⟩ : FileTree)
    let second := (⟨"out"⟩ : Archive).keepReduction .crash 10000 job₂ default first.2
    let path := "out/REDUCED/CRASH/10000x.json"
    path ∈ (⟨"out"⟩ : Archive).reductionTargets .crash 1000 job₁ default ∧
    path ∈ (⟨"out"⟩ : Archive).reductionTargets .crash 10000 job₂ default ∧
    Disk.read path first.2 = .ok job₁.encode ∧ Disk.read path second.2 ≠ .ok job₁.encode := by
  decide +kernel

end ShaderShrink.Archive

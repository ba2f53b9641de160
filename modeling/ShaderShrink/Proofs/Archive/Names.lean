import ShaderShrink.Archive
import ShaderShrink.Proofs.Disk.Path
import ShaderShrink.Proofs.Text.Decimal

/-!
# The names of filed reductions

The files of a minimized job have names in the directory for their status that start with the label
of the job's number (`Archive.reductionFiles_eq`). Labels of different numbers differ, but one may
start with another: from five digits on labels are longer, and a name that starts with a digit can
make up for it. Where this is not so, different numbers have different files
(`Archive.disjoint_reductionNames`).
-/

namespace ShaderShrink

variable {a : Archive} {status : JobStatus} {counter c₁ c₂ : Nat} {job job₁ job₂ : ShaderJob}
  {report report₁ report₂ : ReductionReport} {name n₁ n₂ ending e₁ e₂ dir path : String}
  {names : List String}

/-! ## Labels -/

/-- A label consists of digits. -/
theorem isDigit_of_mem_counterLabel {c : Char} (h : c ∈ (counterLabel counter).toList) :
    c.isDigit :=
  Text.isDigit_of_mem_padded h

/-- Different numbers have different labels. -/
theorem counterLabel_injective : Function.Injective counterLabel := Text.padded_injective 4

/-- A label is not empty. -/
theorem counterLabel_ne_empty (counter : Nat) : counterLabel counter ≠ "" := Text.padded_ne_empty

/-- A label has no slash. -/
theorem no_slash_counterLabel : '/' ∉ (counterLabel counter).toList :=
  fun h => absurd (isDigit_of_mem_counterLabel h) (by decide)

/-- Whether a name starts with a digit. -/
def startsWithDigit (name : String) : Bool := name.toList.head?.any Char.isDigit

/-- A name behind a label and a name behind a longer one are different unless the first name starts
with a digit. -/
theorem counterLabel_append_ne (hlen : (counterLabel c₁).length < (counterLabel c₂).length)
    (hname : startsWithDigit n₁ = false) (hending : e₁.toList.head? = some '.') :
    counterLabel c₁ ++ n₁ ++ e₁ ≠ counterLabel c₂ ++ n₂ ++ e₂ := by
  intro he
  have hl := congrArg String.toList he
  simp only [String.toList_append, List.append_assoc] at hl
  rcases List.append_eq_append_iff.1 hl with ⟨digits, hlabel, hrest⟩ | ⟨more, hlabel, -⟩
  · have hdigits : digits ≠ [] := by
      rintro rfl
      have := congrArg List.length hlabel
      simp only [List.append_nil, String.length_toList] at this
      omega
    obtain ⟨d, digits, rfl⟩ := List.exists_cons_of_ne_nil hdigits
    have hd : d.isDigit := by
      have hmem : d ∈ (counterLabel c₂).toList := by
        rw [hlabel]
        simp
      exact isDigit_of_mem_counterLabel hmem
    -- the digit is the first character of the name or of the ending behind it
    cases hn : n₁.toList with
    | nil =>
      rw [hn, List.nil_append] at hrest
      rw [hrest] at hending
      cases hending
      cases hd
    | cons c rest =>
      rw [hn] at hrest
      obtain ⟨rfl, -⟩ := List.cons_eq_cons.1 hrest
      rw [startsWithDigit, hn] at hname
      simp [hd] at hname
  · have := congrArg List.length hlabel
    simp only [List.length_append, String.length_toList] at this
    omega

/-- Names behind the labels of different numbers are different unless the name behind the shorter
label starts with a digit. -/
theorem eq_of_counterLabel_append (h : counterLabel c₁ ++ n₁ ++ e₁ = counterLabel c₂ ++ n₂ ++ e₂)
    (h₁ : (counterLabel c₁).length < (counterLabel c₂).length → startsWithDigit n₁ = false)
    (h₂ : (counterLabel c₂).length < (counterLabel c₁).length → startsWithDigit n₂ = false)
    (he₁ : e₁.toList.head? = some '.') (he₂ : e₂.toList.head? = some '.') : c₁ = c₂ := by
  rcases Nat.lt_trichotomy (counterLabel c₁).length (counterLabel c₂).length with hlt | heq | hgt
  · exact absurd h (counterLabel_append_ne hlt (h₁ hlt) he₁)
  · have hl := congrArg String.toList h
    simp only [String.toList_append, List.append_assoc] at hl
    have hlabels := (List.append_inj hl (by simpa only [String.length_toList] using heq)).1
    exact counterLabel_injective (String.toList_inj.1 hlabels)
  · exact absurd h.symm (counterLabel_append_ne hgt (h₂ hgt) he₂)

namespace Archive

/-! ## The directory -/

/-- The temporary path of a file is in the directory of the file. -/
theorem temporaryPath_append :
    temporaryPath (dir ++ "/" ++ name) = dir ++ "/" ++ temporaryPath name := by
  simp only [temporaryPath, String.append_assoc]

/-- The directory for a status is in another one. -/
theorem exists_reducedDir_eq (a : Archive) (status : JobStatus) :
    ∃ base, a.reducedDir status = base ++ "/" ++ status.name := by
  obtain ⟨before, hbefore⟩ := Path.exists_join_eq a.root "REDUCED"
  refine ⟨_, Path.join_eq ?_ ?_ ?_⟩
  · simp [hbefore]
  · simp [hbefore]
  · cases status <;> decide

/-- A status has a plain name. -/
theorem plain_status : Path.Plain status.name :=
  .of_length (by cases status <;> decide) (by cases status <;> decide)

/-- A name in the directory for a status. -/
theorem join_reducedDir (h : Path.isAbsolute name = false) :
    Path.join (a.reducedDir status) name = a.reducedDir status ++ "/" ++ name := by
  obtain ⟨base, hbase⟩ := exists_reducedDir_eq a status
  refine Path.join_eq ?_ ?_ h
  · simp [hbase]
  · rw [hbase]
    cases status <;> simp [JobStatus.name]

/-- The parent of a name in the directory for a status is this directory. -/
theorem parent?_reducedDir (h : Path.Plain name) :
    Path.parent? (a.reducedDir status ++ "/" ++ name) = some (a.reducedDir status) := by
  obtain ⟨base, hbase⟩ := exists_reducedDir_eq a status
  have hpieces : Path.pieces (a.reducedDir status) = Path.pieces base ++ [status.name] := by
    rw [hbase, Path.pieces_append, Path.pieces_of_no_slash plain_status.no_slash]
  exact Path.parent?_append hpieces plain_status.not_idle h

/-! ## The files -/

/-- The name of a file of a minimized job. -/
def reductionName (counter : Nat) (job : ShaderJob) (ending : String) : String :=
  counterLabel counter ++ job.name ++ ending

/-- The names of the files of a minimized job. -/
def reductionNames (counter : Nat) (job : ShaderJob) : List String :=
  [".json", ".frag", ".reduction.json"].map (reductionName counter job)

/-- The files of a minimized job, given by name and text. -/
def reductionTexts (counter : Nat) (job : ShaderJob) (report : ReductionReport) :
    List (String × String) :=
  [(reductionName counter job ".json", job.encode),
    (reductionName counter job ".frag", job.program.render),
    (reductionName counter job ".reduction.json", report.encode)]

/-- The texts of a reduction are filed under its names. -/
theorem reductionTexts_names (counter : Nat) (job : ShaderJob) (report : ReductionReport) :
    (reductionTexts counter job report).map Prod.fst = reductionNames counter job := rfl

/-- Each text of a reduction is filed under one of its names. -/
theorem fst_mem_reductionNames {f : String × String} (h : f ∈ reductionTexts counter job report) :
    f.1 ∈ reductionNames counter job :=
  reductionTexts_names counter job report ▸ List.mem_map_of_mem h

/-- Files in a directory, given by path and text. -/
def filesIn (dir : String) (files : List (String × String)) : List (String × String) :=
  files.map fun f => (dir ++ "/" ++ f.1, f.2)

/-- The files of a minimized job are in the directory for the status. -/
theorem reductionFiles_eq : a.reductionFiles status counter job report =
    filesIn (a.reducedDir status) (reductionTexts counter job report) := by
  have hrelative (ending : String) :
      Path.isAbsolute (counterLabel counter ++ job.name ++ ending) = false := by
    obtain ⟨c, rest, hc⟩ := List.exists_cons_of_ne_nil
      (mt String.toList_eq_nil_iff.1 (counterLabel_ne_empty counter))
    have hdigit : c.isDigit := isDigit_of_mem_counterLabel (hc ▸ List.mem_cons_self)
    have hne : c ≠ '/' := by
      rintro rfl
      cases hdigit
    simp [Path.isAbsolute, hc, hne]
  simp only [reductionFiles, reductionTexts, reductionName, join_reducedDir (hrelative _),
    filesIn, List.map_cons, List.map_nil]

/-- The names of files, each with the name of the file that its text is first written to. -/
def withTemporary (names : List String) : List String :=
  names.flatMap fun name => [name, temporaryPath name]

/-- A name is among the names with their temporary ones. -/
theorem mem_withTemporary (h : name ∈ names) : name ∈ withTemporary names :=
  List.mem_flatMap.2 ⟨name, h, List.mem_cons_self⟩

/-- The temporary name of a name is among the names with their temporary ones. -/
theorem temporaryPath_mem_withTemporary (h : name ∈ names) :
    temporaryPath name ∈ withTemporary names :=
  List.mem_flatMap.2 ⟨name, h, List.mem_cons_of_mem _ List.mem_cons_self⟩

/-- The names of the files of a minimized job and of their temporary files start with the label of
its number. -/
theorem label_prefix_of_mem (h : name ∈ withTemporary (reductionNames counter job)) :
    (counterLabel counter).toList <+: name.toList := by
  obtain ⟨whole, hwhole, hname⟩ := List.mem_flatMap.1 h
  obtain ⟨ending, -, rfl⟩ := List.mem_map.1 hwhole
  rcases List.mem_pair.1 hname with rfl | rfl <;>
    simp [reductionName, temporaryPath, String.append_assoc]

/-- The paths that filing a minimized job writes to. -/
def reductionTargets (a : Archive) (status : JobStatus) (counter : Nat) (job : ShaderJob)
    (report : ReductionReport) : List String :=
  withTemporary ((a.reductionFiles status counter job report).map Prod.fst)

/-- What is written for a reduction is in the directory for its status. -/
theorem reductionTargets_eq : a.reductionTargets status counter job report =
    (withTemporary (reductionNames counter job)).map fun name =>
      a.reducedDir status ++ "/" ++ name := by
  have hpaths : (a.reductionFiles status counter job report).map Prod.fst =
      (reductionNames counter job).map fun name => a.reducedDir status ++ "/" ++ name := by
    rw [reductionFiles_eq, filesIn, ← reductionTexts_names counter job report, List.map_map,
      List.map_map]
    rfl
  rw [reductionTargets, hpaths, withTemporary, List.flatMap_map, withTemporary, List.map_flatMap]
  simp only [temporaryPath_append, List.map_cons, List.map_nil]

/-- Behind the name of the job there is a dot in the names of its files. -/
theorem exists_eq_reductionName (h : name ∈ withTemporary (reductionNames counter job)) :
    ∃ ending : String, ending.toList.head? = some '.' ∧
      name = reductionName counter job ending := by
  obtain ⟨whole, hwhole, hname⟩ := List.mem_flatMap.1 h
  obtain ⟨ending, hending, rfl⟩ := List.mem_map.1 hwhole
  have hdots : ∀ ending ∈ [".json", ".frag", ".reduction.json"],
      ending.toList.head? = some '.' := by
    decide
  have hdot := hdots ending hending
  rcases List.mem_pair.1 hname with rfl | rfl
  · exact ⟨ending, hdot, rfl⟩
  · refine ⟨ending ++ ".tmp", by simp [hdot], ?_⟩
    simp only [temporaryPath, reductionName, String.append_assoc]

/-- The files of minimized jobs with different numbers have different names, unless the name of the
job with the shorter label starts with a digit. -/
theorem disjoint_reductionNames (hc : c₁ ≠ c₂)
    (h₁ : (counterLabel c₁).length < (counterLabel c₂).length → startsWithDigit job₁.name = false)
    (h₂ : (counterLabel c₂).length < (counterLabel c₁).length → startsWithDigit job₂.name = false) :
    List.Disjoint (withTemporary (reductionNames c₁ job₁))
      (withTemporary (reductionNames c₂ job₂)) := by
  intro name hn₁ hn₂
  obtain ⟨e₁, he₁, rfl⟩ := exists_eq_reductionName hn₁
  obtain ⟨e₂, he₂, heq⟩ := exists_eq_reductionName hn₂
  exact hc (eq_of_counterLabel_append heq h₁ h₂ he₁ he₂)

end Archive

end ShaderShrink

import ShaderShrink.Pipeline.Work
import ShaderShrink.Proofs.Archive.Names
import ShaderShrink.Proofs.Disk.Names

/-!
# What there is to file

What a worker that minimizes nothing has to file, told without files. A worker examines programs
(`Runner.examine`): what it learns about a pair is an `Inspection`, and the pairs that it takes are
inspected one after another (`Worker.inspections`). Each inspection has its findings
(`Inspection.findings`), which are texts with the names of the directories and of the file where
they belong, below the output directory. No two findings of a worker have the same names
(`Worker.findings_apart`).
-/

namespace ShaderShrink

/-! ## Files of findings -/

/-- The directories for findings. -/
inductive Folder where
  | fault (status : JobStatus) (ignored : Bool)
  | invalid
  | mismatch
  deriving DecidableEq, Repr

/-- The names that lead from the output directory to a directory for findings. -/
def Folder.names : Folder → List String
  | .fault status ignored => status.name :: if ignored then ["IGNORE"] else []
  | .invalid => ["INVALID"]
  | .mismatch => ["MISMATCH"]

/-- What a worker writes down about a program. -/
inductive Document where
  /-- The job as it was handed to the runner. -/
  | job
  /-- The result of running it. -/
  | result
  deriving DecidableEq, Repr

/-- The end of the names of documents. -/
def Document.ending : Document → String
  | .job => ".json"
  | .result => ".info.json"

/-- The name that a document about a program has while a worker works on the pair. -/
def Document.draftName (document : Document) (side : Side) : String :=
  side.stem ++ document.ending

/-- A document that belongs into the archive. -/
structure Finding where
  folder : Folder
  /-- The number of the pair. -/
  counter : Nat
  side : Side
  document : Document
  text : String
  deriving DecidableEq, Repr

namespace Finding

/-- The name that the document has among the files of the current pair. -/
def draftName (f : Finding) : String := f.document.draftName f.side

/-- The names that lead from the output directory to the file of a finding. -/
def names (f : Finding) : List String := f.folder.names ++ [counterLabel f.counter ++ f.draftName]

/-- The file of a finding. -/
def file (f : Finding) : List String × String := (f.names, f.text)

end Finding

/-! ## Inspections -/

variable {σ τ : Type}

/-- How the work on a program goes. -/
inductive Exam where
  /-- The runner does not accept the program. -/
  | invalid
  /-- The runner could not run it. -/
  | failed
  | died
  | ran (result : JobResult)
  deriving DecidableEq, Repr

/-- Runs a program that was accepted. -/
def Runner.runJob (runner : Runner τ) (job : ShaderJob) (s : τ) : Exam × τ :=
  match runner.run job.encode s with
  | (.result result, s) => (.ran result, s)
  | (.failed _, s) => (.failed, s)
  | (.died, s) => (.died, s)

/-- Validates a program and runs it. -/
def Runner.examine (runner : Runner τ) (job : ShaderJob) (s : τ) : Exam × τ :=
  match runner.validate job.encode s with
  | (true, s) => runner.runJob job s
  | (false, s) => (.invalid, s)

/-- The comparator reports a mismatch. -/
def ComparisonOutcome.isMismatch : ComparisonOutcome → Bool
  | .mismatch _ => true
  | .consistent | .unsupported => false

/-- What is learnt about a pair. -/
structure Inspection where
  pair : ProgramPair
  variant : Exam
  /-- There is none if the reference program is left alone. -/
  reference : Option Exam
  /-- Both programs were run, and the comparator reported a mismatch. -/
  differs : Bool
  deriving DecidableEq, Repr

/-- The runner broke down. -/
def Inspection.died (i : Inspection) : Bool := i.variant = .died || i.reference = some .died

namespace Worker

/-- Examines the reference program of a pair whose variant was run, and compares the results if it
was run, too. -/
def inspectReference (w : Worker τ) (pair : ProgramPair) (variant : JobResult) (s : τ) :
    Inspection × τ :=
  match w.runner.examine pair.reference s with
  | (.ran reference, s) =>
    let (outcome, s) := w.comparator reference variant s
    (⟨pair, .ran variant, some (.ran reference), outcome.isMismatch⟩, s)
  | (exam, s) => (⟨pair, .ran variant, some exam, false⟩, s)

/-- Examines the variant of a pair, and the reference program if the variant could be run and
reference programs are wanted. -/
def inspect (w : Worker τ) (pair : ProgramPair) (s : τ) : Inspection × τ :=
  match w.runner.examine pair.variant s with
  | (.ran variant, s) =>
    if w.config.variantsOnly then (⟨pair, .ran variant, none, false⟩, s)
    else w.inspectReference pair variant s
  | (exam, s) => (⟨pair, exam, none, false⟩, s)

/-- Inspects pairs until the runner breaks down. -/
def inspectAll (w : Worker τ) : List ProgramPair → τ → List Inspection
  | [], _ => []
  | pair :: rest, s =>
    let (inspection, s) := w.inspect pair s
    inspection :: if inspection.died then [] else w.inspectAll rest s

/-- The inspections of the pairs that the worker takes. -/
def inspections (w : Worker τ) (pairs : List ProgramPair) (s : τ) : List Inspection :=
  w.inspectAll (pairs.take w.config.limit.toNat) s

end Worker

/-! ## Findings -/

/-- The result is that of a crash whose log has one of the texts that show a known problem; empty
texts do not count. -/
def WorkerConfig.Knows (config : WorkerConfig) (result : JobResult) : Prop :=
  result.status = .crash ∧
    ∃ needle ∈ config.ignoreStrings.toList, needle ≠ "" ∧ needle.toList <:+: result.log.toList

instance (config : WorkerConfig) (result : JobResult) : Decidable (config.Knows result) :=
  inferInstanceAs (Decidable (_ ∧ _))

/-- A result is ignored if the settings of the worker know it. -/
theorem Worker.isIgnored_eq (w : Worker σ) (result : JobResult) :
    w.isIgnored result = decide (w.config.Knows result) := by
  rw [Bool.eq_iff_iff, decide_eq_true_iff, isIgnored, Bool.and_eq_true, decide_eq_true_iff,
    WorkerConfig.Knows, JobResult.logsAnyOf, List.any_eq_true]
  simp only [Bool.and_eq_true, Bool.not_eq_true', String.isEmpty_eq_false_iff, Text.mentions_iff]

/-- Both documents about a program that was run, in a directory. -/
def documents (folder : Folder) (counter : Nat) (side : Side) (job : ShaderJob)
    (result : JobResult) : List Finding :=
  [⟨folder, counter, side, .job, job.encode⟩,
    ⟨folder, counter, side, .result, result.toJson.pretty⟩]

/-- What there is to file of a program alone: a program that is not valid, or one that was run and
showed a fault. -/
def Exam.findings (config : WorkerConfig) (counter : Nat) (side : Side) (job : ShaderJob) :
    Exam → List Finding
  | .invalid => [⟨.invalid, counter, side, .job, job.encode⟩]
  | .failed | .died => []
  | .ran result =>
    if result.status.isFault then
      documents (.fault result.status (config.Knows result)) counter side job result
    else []

namespace Inspection

/-- What there is to file of the reference program alone. -/
def referenceFindings (config : WorkerConfig) (counter : Nat) (i : Inspection) : List Finding :=
  match i.reference with
  | none => []
  | some exam => exam.findings config counter .reference i.pair.reference

/-- What there is to file of both programs if they behaved differently. -/
def mismatches (counter : Nat) (i : Inspection) : List Finding :=
  match i.variant, i.reference with
  | .ran variant, some (.ran reference) =>
    if i.differs then
      documents .mismatch counter .reference i.pair.reference reference ++
        documents .mismatch counter .variant i.pair.variant variant
    else []
  | _, _ => []

/-- What there is to file of a pair. -/
def findings (config : WorkerConfig) (counter : Nat) (i : Inspection) : List Finding :=
  i.variant.findings config counter .variant i.pair.variant ++
    i.referenceFindings config counter ++ i.mismatches counter

end Inspection

namespace Worker

/-- What there is to file of some pairs, the first of which has the given number. -/
def findingsFrom (w : Worker τ) (counter : Nat) (inspections : List Inspection) : List Finding :=
  (inspections.zipIdx counter).flatMap fun i => i.1.findings w.config i.2

/-- What there is to file of the pairs that the worker takes. -/
def findings (w : Worker τ) (pairs : List ProgramPair) (s : τ) : List Finding :=
  w.findingsFrom 0 (w.inspections pairs s)

/-- The findings for the first pair come first, under its number. -/
theorem findingsFrom_cons (w : Worker τ) (counter : Nat) (i : Inspection)
    (rest : List Inspection) : w.findingsFrom counter (i :: rest) =
      i.findings w.config counter ++ w.findingsFrom (counter + 1) rest := by
  rw [findingsFrom, List.zipIdx_cons, List.flatMap_cons, ← findingsFrom]

end Worker

/-! ## Names -/

section
variable {f g : Finding} {folder folder' : Folder} {counter : Nat} {side : Side}
  {document : Document} {name : String} {job : ShaderJob} {result : JobResult}
  {config : WorkerConfig} {exam : Exam} {i : Inspection}

/-- Directories for findings have plain names. -/
theorem Folder.plain_names (h : name ∈ folder.names) : Path.Plain name := by
  cases folder with
  | fault status ignored =>
    rcases List.mem_cons.1 h with rfl | h
    · exact Archive.plain_status
    · cases ignored with
      | false => cases h
      | true => exact List.mem_singleton.1 h ▸ .of_length (by decide) (by decide)
  | invalid => exact List.mem_singleton.1 h ▸ .of_length (by decide) (by decide)
  | mismatch => exact List.mem_singleton.1 h ▸ .of_length (by decide) (by decide)

/-- No directory for findings is inside `temp/`. -/
theorem Folder.exists_names_eq (folder : Folder) :
    ∃ name rest, folder.names = name :: rest ∧ name ≠ "temp" := by
  cases folder with
  | fault status ignored => exact ⟨status.name, _, rfl, by cases status <;> decide⟩
  | invalid | mismatch => exact ⟨_, [], rfl, by decide⟩

/-- Different directories for findings have different names. -/
theorem Folder.names_injective : Function.Injective Folder.names := by
  intro folder folder' h
  cases folder with
  | fault status ignored =>
    cases folder' with
    | fault status' ignored' =>
      obtain ⟨hstatus, hignored⟩ := List.cons_eq_cons.1 h
      have hs : status = status' := by
        cases status <;> cases status' <;> first | rfl | exact absurd hstatus (by decide)
      have hi : ignored = ignored' := by
        cases ignored <;> cases ignored' <;> first | rfl | exact absurd hignored (by decide)
      rw [hs, hi]
    | invalid | mismatch =>
      have hhead := (List.cons_eq_cons.1 h).1
      cases status <;> exact absurd hhead (by decide)
  | invalid | mismatch =>
    cases folder' with
    | fault status ignored =>
      have hhead := (List.cons_eq_cons.1 h).1
      cases status <;> exact absurd hhead (by decide)
    | invalid | mismatch => first | rfl | exact absurd h (by decide)

/-- Documents have plain names. -/
theorem Document.plain_draftName (document : Document) (side : Side) :
    Path.Plain (document.draftName side) := by
  cases document <;> cases side <;> exact .of_length (by decide) (by decide)

/-- The documents about the programs of a pair have different names. -/
theorem Document.draftName_inj {document document' : Document} {side side' : Side} :
    document.draftName side = document'.draftName side' ↔ side = side' ∧ document = document' := by
  cases document <;> cases document' <;> cases side <;> cases side' <;> decide

namespace Finding

/-- The names that lead to a finding are plain. -/
theorem plain_names (h : name ∈ f.names) : Path.Plain name := by
  rcases List.mem_append.1 h with h | h
  · exact Folder.plain_names h
  · have hdraft := f.document.plain_draftName f.side
    have hlen : 3 ≤ (f.document.draftName f.side).length := by
      cases f.document <;> cases f.side <;> decide
    rw [List.mem_singleton.1 h, draftName]
    refine .of_length ?_ ?_
    · rw [String.toList_append, List.mem_append]
      exact not_or.2 ⟨no_slash_counterLabel, hdraft.no_slash⟩
    · rw [String.length_append]
      omega

/-- The file of a finding is not the output directory. -/
theorem names_ne_nil : f.names ≠ [] := by simp [names]

/-- Findings are not filed among the files of the current pair. -/
theorem not_temp_prefix_names (f : Finding) : ¬ ["temp"] <+: f.names := by
  obtain ⟨name, rest, hnames, hne⟩ := f.folder.exists_names_eq
  rw [names, hnames, List.cons_append, List.cons_prefix_cons]
  exact fun h => hne h.1.symm

/-- The names tell what a finding is, but for its text. -/
theorem names_inj : f.names = g.names ↔
    f.folder = g.folder ∧ f.counter = g.counter ∧ f.side = g.side ∧ f.document = g.document := by
  constructor
  · intro h
    obtain ⟨hfolder, hname⟩ := List.append_inj' h rfl
    have hdraft (f : Finding) : f.draftName = f.side.stem ++ f.document.ending := rfl
    have hstem (side : Side) : startsWithDigit side.stem = false := by cases side <;> decide
    have hending (document : Document) : document.ending.toList.head? = some '.' := by
      cases document <;> decide
    have hname := List.singleton_inj.1 hname
    rw [hdraft, hdraft, ← String.append_assoc, ← String.append_assoc] at hname
    have hcounter := eq_of_counterLabel_append hname (fun _ => hstem _) (fun _ => hstem _)
      (hending _) (hending _)
    rw [hcounter, String.append_assoc, String.append_assoc, String.append_right_inj] at hname
    exact ⟨Folder.names_injective hfolder, hcounter, Document.draftName_inj.1 hname⟩
  · rintro ⟨hfolder, hcounter, hside, hdocument⟩
    rw [names, names, draftName, draftName, hfolder, hcounter, hside, hdocument]

/-- Findings that are filed in different files. -/
def Apart (f g : Finding) : Prop := f.names ≠ g.names

end Finding

/-! ## Different files -/

/-- The job and the result of a program have different names. -/
theorem documents_apart : (documents folder counter side job result).Pairwise Finding.Apart := by
  rw [documents, List.pairwise_pair]
  intro h
  cases (Finding.names_inj.1 h).2.2.2

/-- Documents about a program are filed where they belong. -/
theorem eq_of_mem_documents (h : f ∈ documents folder counter side job result) :
    f.folder = folder ∧ f.counter = counter ∧ f.side = side := by
  rcases List.mem_pair.1 h with rfl | rfl <;> exact ⟨rfl, rfl, rfl⟩

/-- What is filed of one program is not filed as a mismatch, and it has the number and the side of
the program. -/
theorem Exam.eq_of_mem_findings (h : f ∈ exam.findings config counter side job) :
    f.folder ≠ .mismatch ∧ f.counter = counter ∧ f.side = side := by
  cases exam with
  | invalid => exact List.mem_singleton.1 h ▸ ⟨nofun, rfl, rfl⟩
  | failed | died => cases h
  | ran result =>
    rw [findings] at h
    split at h
    · obtain ⟨hfolder, hrest⟩ := eq_of_mem_documents h
      exact ⟨hfolder ▸ nofun, hrest⟩
    · cases h

/-- What is filed of one program has different names. -/
theorem Exam.findings_apart :
    (exam.findings config counter side job).Pairwise Finding.Apart := by
  cases exam with
  | invalid => exact List.pairwise_singleton _ _
  | failed | died => exact .nil
  | ran result =>
    rw [findings]
    split
    · exact documents_apart
    · exact .nil

namespace Inspection

/-- What is filed of a reference program is not filed as a mismatch, and it has the number of the
pair and the side of the reference. -/
theorem eq_of_mem_referenceFindings (h : f ∈ i.referenceFindings config counter) :
    f.folder ≠ .mismatch ∧ f.counter = counter ∧ f.side = .reference := by
  rw [referenceFindings] at h
  split at h
  · cases h
  · exact Exam.eq_of_mem_findings h

/-- What is filed of a reference program has different names. -/
theorem referenceFindings_apart :
    (i.referenceFindings config counter).Pairwise Finding.Apart := by
  rw [referenceFindings]
  split
  · exact .nil
  · exact Exam.findings_apart

/-- A mismatch is filed as such, under the number of the pair. -/
theorem eq_of_mem_mismatches (h : f ∈ i.mismatches counter) :
    f.folder = .mismatch ∧ f.counter = counter := by
  rw [mismatches] at h
  split at h
  · split at h
    · rcases List.mem_append.1 h with h | h
      · exact ⟨(eq_of_mem_documents h).1, (eq_of_mem_documents h).2.1⟩
      · exact ⟨(eq_of_mem_documents h).1, (eq_of_mem_documents h).2.1⟩
    · cases h
  · cases h

/-- What is filed of a mismatch has different names. -/
theorem mismatches_apart : (i.mismatches counter).Pairwise Finding.Apart := by
  rw [mismatches]
  split
  · split
    · refine List.pairwise_append.2 ⟨documents_apart, documents_apart, fun f hf g hg he => ?_⟩
      have hside := (Finding.names_inj.1 he).2.2.1
      rw [(eq_of_mem_documents hf).2.2, (eq_of_mem_documents hg).2.2] at hside
      cases hside
    · exact .nil
  · exact .nil

/-- What is filed of a pair has the number of the pair. -/
theorem counter_of_mem_findings (h : f ∈ i.findings config counter) :
    f.counter = counter := by
  rcases List.mem_append.1 h with h | h
  · rcases List.mem_append.1 h with h | h
    · exact (Exam.eq_of_mem_findings h).2.1
    · exact (eq_of_mem_referenceFindings h).2.1
  · exact (eq_of_mem_mismatches h).2

/-- The findings of a pair are told apart by the program and by the directory. -/
theorem findings_apart : (i.findings config counter).Pairwise Finding.Apart := by
  refine List.pairwise_append.2 ⟨List.pairwise_append.2 ⟨Exam.findings_apart,
    referenceFindings_apart, fun f hf g hg he => ?_⟩, mismatches_apart, fun f hf g hg he => ?_⟩
  · have hside := (Finding.names_inj.1 he).2.2.1
    rw [(Exam.eq_of_mem_findings hf).2.2, (eq_of_mem_referenceFindings hg).2.2] at hside
    cases hside
  · have hfolder := (Finding.names_inj.1 he).1
    rw [(eq_of_mem_mismatches hg).1] at hfolder
    rcases List.mem_append.1 hf with hf | hf
    · exact (Exam.eq_of_mem_findings hf).1 hfolder
    · exact (eq_of_mem_referenceFindings hf).1 hfolder

end Inspection

/-- No two findings of a worker belong into the same file: those of different pairs are told apart
by the label of the number. -/
theorem Worker.findings_apart (w : Worker τ) (pairs : List ProgramPair) (s : τ) :
    (w.findings pairs s).Pairwise Finding.Apart := by
  have hcounters : ((w.inspections pairs s).zipIdx 0).Pairwise fun i j => i.2 ≠ j.2 := by
    rw [← List.pairwise_map, ← List.nodup_iff_pairwise_ne, List.zipIdx_map_snd]
    exact List.nodup_range'
  refine List.pairwise_flatMap.2 ⟨fun i _ => Inspection.findings_apart, hcounters.imp ?_⟩
  intro i j hne f hf g hg he
  have hcounter := (Finding.names_inj.1 he).2.1
  rw [Inspection.counter_of_mem_findings hf, Inspection.counter_of_mem_findings hg] at hcounter
  exact hne hcounter

end

end ShaderShrink

import ShaderShrink.Disk.Basic
import ShaderShrink.Disk.Path
import ShaderShrink.Job.Basic
import ShaderShrink.Job.Result
import ShaderShrink.Reduction.Report
import ShaderShrink.Text.Decimal

/-!
# The archive

Where the pipeline files what it finds, below an output directory:

* `<STATUS>/` has the jobs that ended with a fault and their results, and `<STATUS>/IGNORE/` those
  whose log shows a known problem;
* `INVALID/` has the jobs that are not valid;
* `REDUCED/<STATUS>/` has minimized jobs with their reports;
* `MISMATCH/` has pairs whose programs behaved differently;
* `temp/` is where the files of the current job are made.

The names of filed files start with the number of the job, with four digits at least.
-/

namespace ShaderShrink

/-- Why something could not be filed. -/
inductive ArchiveError where
  | io (path : String) (cause : DiskError)
  /-- The path of a file to be filed does not end in a name. -/
  | unnamedArtifact (path : String)
  | encode (text : String)
  deriving DecidableEq, Repr

namespace ArchiveError

/-- The name of a kind of errors. -/
def code : ArchiveError → String
  | .io .. => "triage_io"
  | .unnamedArtifact _ => "triage_unnamed_artifact"
  | .encode _ => "triage_encode"

/-- What is said about an error. -/
def message : ArchiveError → String
  | .io path cause => "triage I/O failed at " ++ path ++ ": " ++ cause.message
  | .unnamedArtifact path => "artifact " ++ path ++ " has no file name"
  | .encode text => "failed to encode triage artifact: " ++ text

end ArchiveError

/-- The start of the names of the files of a job. -/
def counterLabel (counter : Nat) : String := Text.padded 4 counter

/-- An archive, given by its output directory. -/
structure Archive where
  root : String
  deriving DecidableEq, Repr, Inhabited

namespace Archive

/-! ## Directories -/

/-- Where jobs with a fault are filed. -/
def faultDir (a : Archive) (status : JobStatus) (ignored : Bool) : String :=
  let dir := Path.join a.root status.name
  if ignored then Path.join dir "IGNORE" else dir

/-- Where jobs that are not valid are filed. -/
def invalidDir (a : Archive) : String := Path.join a.root "INVALID"

/-- Where minimized jobs are filed. -/
def reducedDir (a : Archive) (status : JobStatus) : String :=
  Path.join (Path.join a.root "REDUCED") status.name

/-- Where pairs that behave differently are filed. -/
def mismatchDir (a : Archive) : String := Path.join a.root "MISMATCH"

/-- Where the files of the current job are made. Each of several workers has a directory of its
own. -/
def workDir (a : Archive) (worker : Option Nat) : String :=
  let dir := Path.join a.root "temp"
  match worker with
  | none => dir
  | some id => Path.join dir ("worker-" ++ toString id)

/-! ## Filing -/

variable {σ : Type} [Disk σ]

/-- Makes a directory and those above it. -/
def makeDir (dir : String) (s : σ) : Except ArchiveError Unit × σ :=
  match Disk.createDirAll dir s with
  | (.ok _, s) => (.ok (), s)
  | (.error e, s) => (.error (.io dir e), s)

/-- The archive below a directory, which is made if it is not there. -/
def create (root : String) (s : σ) : Except ArchiveError Archive × σ :=
  match makeDir root s with
  | (.ok _, s) => (.ok ⟨root⟩, s)
  | (.error e, s) => (.error e, s)

/-- Empties a directory, which is made if it is not there. -/
def resetDir (dir : String) (s : σ) : Except ArchiveError Unit × σ :=
  match Disk.removeDirAll dir s with
  | (.ok _, s) | (.error .notFound, s) => makeDir dir s
  | (.error e, s) => (.error (.io dir e), s)

/-- Copies files into a directory under names that start with `start`. The first file that cannot be
copied ends the copying. -/
def copyInto (dir start : String) : List String → σ → Except ArchiveError (List String) × σ
  | [], s => (.ok [], s)
  | source :: rest, s =>
    match Path.fileName? source with
    | none => (.error (.unnamedArtifact source), s)
    | some name =>
      let target := Path.join dir (start ++ name)
      match Disk.copy source target s with
      | (.error e, s) => (.error (.io source e), s)
      | (.ok _, s) =>
        match copyInto dir start rest s with
        | (.error e, s) => (.error e, s)
        | (.ok targets, s) => (.ok (target :: targets), s)

/-- Files copies of the files of a job in a directory, which is made if it is not there. -/
def keepCopies (dir : String) (counter : Nat) (artifacts : List String) (s : σ) :
    Except ArchiveError (List String) × σ :=
  match makeDir dir s with
  | (.error e, s) => (.error e, s)
  | (.ok _, s) => copyInto dir (counterLabel counter) artifacts s

/-- Files a job with a fault. -/
def keepFault (a : Archive) (status : JobStatus) (ignored : Bool) (counter : Nat)
    (artifacts : List String) (s : σ) : Except ArchiveError (List String) × σ :=
  keepCopies (a.faultDir status ignored) counter artifacts s

/-- Files a job that is not valid. -/
def keepInvalid (a : Archive) (counter : Nat) (artifacts : List String) (s : σ) :
    Except ArchiveError (List String) × σ :=
  keepCopies a.invalidDir counter artifacts s

/-- Files a pair that behaves differently. -/
def keepMismatch (a : Archive) (counter : Nat) (artifacts : List String) (s : σ) :
    Except ArchiveError (List String) × σ :=
  keepCopies a.mismatchDir counter artifacts s

/-- The path of the file that a text is first written to. -/
def temporaryPath (path : String) : String := path ++ ".tmp"

/-- Writes a file in such a way that nobody sees a part of it: the text is written to another file,
which is then moved to its place. -/
def writeWhole (path text : String) (s : σ) : Except ArchiveError Unit × σ :=
  match Path.parent? path with
  | none => (.error (.unnamedArtifact path), s)
  | some dir =>
    match makeDir dir s with
    | (.error e, s) => (.error e, s)
    | (.ok _, s) =>
      match Disk.write (temporaryPath path) text s with
      | (.error e, s) => (.error (.io (temporaryPath path) e), s)
      | (.ok _, s) =>
        match Disk.rename (temporaryPath path) path s with
        | (.error e, s) => (.error (.io path e), s)
        | (.ok _, s) => (.ok (), s)

/-- Writes files, given by path and text, and gives their paths. The first file that cannot be
written ends the writing. -/
def writeAll : List (String × String) → σ → Except ArchiveError (List String) × σ
  | [], s => (.ok [], s)
  | (path, text) :: rest, s =>
    match writeWhole path text s with
    | (.error e, s) => (.error e, s)
    | (.ok _, s) =>
      match writeAll rest s with
      | (.error e, s) => (.error e, s)
      | (.ok paths, s) => (.ok (path :: paths), s)

/-- The files of a minimized job: the job, the text of its program, and the report. -/
def reductionFiles (a : Archive) (status : JobStatus) (counter : Nat) (job : ShaderJob)
    (report : ReductionReport) : List (String × String) :=
  let path (ending : String) :=
    Path.join (a.reducedDir status) (counterLabel counter ++ job.name ++ ending)
  [(path ".json", job.encode), (path ".frag", job.program.render),
    (path ".reduction.json", report.encode)]

/-- Files a minimized job. -/
def keepReduction (a : Archive) (status : JobStatus) (counter : Nat) (job : ShaderJob)
    (report : ReductionReport) (s : σ) : Except ArchiveError (List String) × σ :=
  writeAll (a.reductionFiles status counter job report) s

end Archive

end ShaderShrink

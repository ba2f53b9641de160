/-!
# Disks

What the pipeline does to files. A disk whose states are of type `σ` says what each operation gives
and leaves behind; any type with such operations is a disk, so a theorem about all disks is one
about all ways in which operations can fail.
-/

namespace ShaderShrink

/-- Why an operation on files failed. -/
inductive DiskError where
  | notFound
  | alreadyExists
  | notADirectory
  | isADirectory
  | nameTooLong
  | notAFile
  | badPath
  | other (text : String)
  deriving DecidableEq, Repr, Inhabited

/-- What is said about an operation that failed. -/
def DiskError.message : DiskError → String
  | .notFound => "No such file or directory (os error 2)"
  | .alreadyExists => "File exists (os error 17)"
  | .notADirectory => "Not a directory (os error 20)"
  | .isADirectory => "Is a directory (os error 21)"
  | .nameTooLong => "File name too long (os error 36)"
  | .notAFile => "the source path is neither a regular file nor a symlink to a regular file"
  | .badPath => "file name contained an unexpected NUL byte"
  | .other text => text

/-- A disk: operations on files, given by paths. -/
class Disk (σ : Type) where
  /-- Makes a directory and those above it, as far as they are missing. -/
  createDirAll : String → σ → Except DiskError Unit × σ
  /-- Removes a directory with everything in it. -/
  removeDirAll : String → σ → Except DiskError Unit × σ
  /-- Makes a file with the given text, or gives an existing file that text. -/
  write : String → String → σ → Except DiskError Unit × σ
  /-- Gives the file at the second path the text of the file at the first. -/
  copy : String → String → σ → Except DiskError Unit × σ
  /-- Moves the file at the first path to the second. -/
  rename : String → String → σ → Except DiskError Unit × σ
  /-- The text of a file. -/
  read : String → σ → Except DiskError String

end ShaderShrink

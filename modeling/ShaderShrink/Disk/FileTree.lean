import ShaderShrink.Disk.Basic
import ShaderShrink.Disk.Path

/-!
# File trees

A disk in memory: which files and directories there are, and in which directory paths start that do
not start at the root. A place is given by the names from the root down to it. Directories have to
be there before something is put into them, a name has at most 255 bytes and a path at most 4095,
and a path goes wrong at the first of its pieces, from the left, that is not what it should be.
-/

namespace ShaderShrink

/-- What is at a place. -/
inductive FileEntry where
  | file (text : String)
  | directory
  deriving DecidableEq, Repr, Inhabited

/-- Where something is: the names from the root down to it. -/
abbrev Place := List String

/-- Files and directories. The root is a directory that is always there. -/
structure FileTree where
  /-- What there is below the root. -/
  entries : List (Place × FileEntry)
  /-- The directory in which relative paths start. -/
  workingDir : Place
  deriving DecidableEq, Repr, Inhabited

namespace FileTree

/-! ## Places -/

/-- What is at a place. -/
def get? (t : FileTree) (place : Place) : Option FileEntry :=
  if place = [] then some .directory else t.entries.lookup place

/-- Puts something at a place. -/
def set (t : FileTree) (place : Place) (entry : FileEntry) : FileTree :=
  { t with entries := (place, entry) :: t.entries.filter (·.1 ≠ place) }

/-- Takes away what is at a place and below it. -/
def erase (t : FileTree) (place : Place) : FileTree :=
  { t with entries := t.entries.filter fun e => !place.isPrefixOf e.1 }

/-- Whether a place is a directory. -/
def isDirectory (t : FileTree) (place : Place) : Bool := t.get? place = some .directory

/-! ## Paths -/

/-- Where a path leads to. -/
inductive Target where
  /-- There is something at the place. -/
  | existing (place : Place) (entry : FileEntry)
  /-- There is nothing at the place, but its directory is there; `slash` tells whether the path
  insists on a directory by ending in a slash. -/
  | missing (place : Place) (slash : Bool)
  deriving DecidableEq, Repr

/-- The most bytes that a name has. -/
def nameLimit : Nat := 255

/-- The most bytes that a path has. -/
def pathLimit : Nat := 4095

/-- Follows the pieces of a path from a directory on. -/
def follow (t : FileTree) (here : Place) : List String → Except DiskError Target
  | [] => .ok (.existing here .directory)
  | piece :: rest =>
    if Path.isIdle piece then t.follow here rest
    else if piece = ".." then t.follow here.dropLast rest
    else if piece.utf8ByteSize > nameLimit then .error .nameTooLong
    else
      match t.get? (here ++ [piece]) with
      | some .directory => t.follow (here ++ [piece]) rest
      | some entry =>
        if rest.isEmpty then .ok (.existing (here ++ [piece]) entry) else .error .notADirectory
      | none =>
        if rest.all String.isEmpty then .ok (.missing (here ++ [piece]) !rest.isEmpty)
        else .error .notFound

/-- Follows a path. -/
def locate (t : FileTree) (path : String) : Except DiskError Target :=
  if path.toList.contains '\x00' then .error .badPath
  else if path.isEmpty then .error .notFound
  else if path.utf8ByteSize > pathLimit then .error .nameTooLong
  else t.follow (if Path.isAbsolute path then [] else t.workingDir) (Path.pieces path)

/-- Whether a path leads to a directory. -/
def isDir (t : FileTree) (path : String) : Bool :=
  match t.locate path with
  | .ok (.existing place _) => t.isDirectory place
  | _ => false

/-! ## Operations -/

/-- Makes a directory in one that is there. -/
def createDir (t : FileTree) (path : String) : Except DiskError FileTree :=
  match t.locate path with
  | .error e => .error e
  | .ok (.existing ..) => .error .alreadyExists
  | .ok (.missing place _) => .ok (t.set place .directory)

/-- Makes a directory in one that is there, or finds that it is there already. -/
def ensureDir (t : FileTree) (path : String) : Except DiskError FileTree :=
  match t.createDir path with
  | .ok t => .ok t
  | .error e => if t.isDir path then .ok t else .error e

/-- Makes a directory and those above it, as far as they are missing, going up at most `levels`
levels. -/
def createDirsWithin (t : FileTree) : Nat → String → Except DiskError Unit × FileTree
  | 0, _ => (.error .notFound, t)
  | levels + 1, path =>
    if path.isEmpty then (.ok (), t)
    else
      match t.createDir path with
      | .ok t => (.ok (), t)
      | .error .notFound =>
        match Path.parent? path with
        | none => (.error .notFound, t)
        | some parent =>
          match t.createDirsWithin levels parent with
          | (.error e, t) => (.error e, t)
          | (.ok _, t) =>
            match t.ensureDir path with
            | .ok t => (.ok (), t)
            | .error e => (.error e, t)
      | .error e => if t.isDir path then (.ok (), t) else (.error e, t)

/-- Makes a directory and those above it, as far as they are missing. -/
def createDirAll (path : String) (t : FileTree) : Except DiskError Unit × FileTree :=
  t.createDirsWithin (path.length + 1) path

/-- Removes a directory with everything in it. -/
def removeDirAll (path : String) (t : FileTree) : Except DiskError Unit × FileTree :=
  match t.locate path with
  | .error e => (.error e, t)
  | .ok (.missing ..) => (.error .notFound, t)
  | .ok (.existing place .directory) => (.ok (), t.erase place)
  | .ok (.existing _ (.file _)) => (.error .notADirectory, t)

/-- Makes a file with the given text, or gives an existing file that text. -/
def write (path text : String) (t : FileTree) : Except DiskError Unit × FileTree :=
  match t.locate path with
  | .error e => (.error e, t)
  | .ok (.existing _ .directory) => (.error .isADirectory, t)
  | .ok (.existing place (.file _)) => (.ok (), t.set place (.file text))
  | .ok (.missing _ true) => (.error .isADirectory, t)
  | .ok (.missing place false) => (.ok (), t.set place (.file text))

/-- The place and the text of a file. -/
def fileAt (t : FileTree) (path : String) : Except DiskError (Place × String) :=
  match t.locate path with
  | .error e => .error e
  | .ok (.missing ..) => .error .notFound
  | .ok (.existing _ .directory) => .error .isADirectory
  | .ok (.existing place (.file text)) => .ok (place, text)

/-- The text of a file. -/
def read (path : String) (t : FileTree) : Except DiskError String := (t.fileAt path).map Prod.snd

/-- Gives the file at `target` the text of the file at `source`. A file that is copied onto itself
loses its text, since the target is emptied first. -/
def copy (source target : String) (t : FileTree) : Except DiskError Unit × FileTree :=
  match t.fileAt source with
  | .error .isADirectory => (.error .notAFile, t)
  | .error e => (.error e, t)
  | .ok (place, text) =>
    match t.write target "" with
    | (.error e, t) => (.error e, t)
    | (.ok _, emptied) =>
      emptied.write target (if emptied.get? place = some (.file text) then text else "")

/-- Moves the file at `source` to `target`. -/
def rename (source target : String) (t : FileTree) : Except DiskError Unit × FileTree :=
  match t.fileAt source with
  | .error e => (.error e, t)
  | .ok (place, text) =>
    match t.locate target with
    | .error e => (.error e, t)
    | .ok (.existing _ .directory) => (.error .isADirectory, t)
    | .ok (.missing _ true) => (.error .notADirectory, t)
    | .ok (.existing target (.file _)) | .ok (.missing target false) =>
      (.ok (), (t.erase place).set target (.file text))

instance : Disk FileTree where
  createDirAll := createDirAll
  removeDirAll := removeDirAll
  write := write
  copy := copy
  rename := rename
  read := read

/-! ## Listings -/

/-- A place below `base`, as a path in which `name` stands for `base`. -/
def relativePath (name : String) (base place : Place) : String :=
  "/".intercalate (name :: place.drop base.length)

/-- Whether something is below a place. -/
def hasEntryBelow (t : FileTree) (place : Place) : Bool :=
  t.entries.any fun e => place.isPrefixOf e.1 && e.1 ≠ place

/-- The files at and below a place with their texts, and the directories without entries, under
paths in which `name` stands for the place. -/
def listing (t : FileTree) (name : String) (base : Place) : List (String × Option String) :=
  let here := (base, (t.get? base).getD .directory)
  let below := t.entries.filter fun e => base.isPrefixOf e.1 && e.1 ≠ base
  (here :: below).filterMap fun (place, entry) =>
    match entry with
    | .file text => some (relativePath name base place, some text)
    | .directory =>
      if t.hasEntryBelow place then none else some (relativePath name base place, none)

end FileTree

end ShaderShrink

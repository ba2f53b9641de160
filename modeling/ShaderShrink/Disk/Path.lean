/-!
# Paths

A path is a text whose pieces are separated by slashes. A path that starts with a slash starts at
the root of the file tree, any other one at the working directory. Empty pieces and pieces that are
one dot change nothing, except that a dot in front of a relative path is a component of its own; two
dots lead to the directory above.
-/

namespace ShaderShrink.Path

/-- The pieces of a list of characters between slashes; `piece` holds the characters of the current
one, last one first. -/
def piecesFrom (piece : List Char) : List Char → List (List Char)
  | [] => [piece.reverse]
  | c :: rest =>
    if c = '/' then piece.reverse :: piecesFrom [] rest else piecesFrom (c :: piece) rest

/-- The pieces of a path between slashes. -/
def pieces (path : String) : List String := (piecesFrom [] path.toList).map String.ofList

/-- Whether a path starts at the root. -/
def isAbsolute (path : String) : Bool := path.toList.head? = some '/'

/-- Whether a piece changes nothing behind another one. -/
def isIdle (piece : String) : Bool := piece = "" || piece = "."

/-- Pieces without those at the end that change nothing. -/
def trim (pieces : List String) : List String := (pieces.reverse.dropWhile isIdle).reverse

/-- The path with the given pieces, of which the first one says where the path starts. -/
def ofPieces (first : String) (rest : List String) : String := "/".intercalate (first :: rest)

/-- The name of the file or directory that a path leads to, unless the path ends in two dots or has
no component with a name. -/
def fileName? (path : String) : Option String :=
  match pieces path with
  | [] => none
  | first :: rest =>
    let name := (trim rest).getLastD first
    if isIdle name || name = ".." then none else some name

/-- The path without its last component; a path without components has none. -/
def parent? (path : String) : Option String :=
  match pieces path with
  | [] => none
  | first :: rest =>
    match trim rest with
    | [] => if first = "" then none else some ""
    | rest =>
      match trim rest.dropLast with
      | [] => if first = "" then some "/" else some first
      | rest => some (ofPieces first rest)

/-- The path that `path` stands for when it is read below `base`. -/
def join (base path : String) : String :=
  if isAbsolute path || base.isEmpty then path
  else if base.toList.getLast? = some '/' then base ++ path
  else base ++ "/" ++ path

end ShaderShrink.Path

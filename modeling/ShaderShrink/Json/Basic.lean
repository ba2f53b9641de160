/-!
# JSON values

The JSON values that the program's formats are made of: no format holds numbers other than integers.
An object is the list of its members in the order in which they are written.
-/

namespace ShaderShrink

/-- A JSON value. -/
inductive Json where
  | null
  | bool (value : Bool)
  | int (value : Int)
  | str (text : String)
  | arr (items : List Json)
  | obj (members : List (String × Json))
  deriving Repr, Inhabited

namespace Json

mutual

/-- How many arrays and objects are nested inside each other at the deepest place. -/
def depth : Json → Nat
  | .arr items => depthItems items + 1
  | .obj members => depthMembers members + 1
  | _ => 0

/-- The depth of the deepest of some values. -/
def depthItems : List Json → Nat
  | [] => 0
  | v :: rest => max v.depth (depthItems rest)

/-- The depth of the deepest value of some members. -/
def depthMembers : List (String × Json) → Nat
  | [] => 0
  | (_, v) :: rest => max v.depth (depthMembers rest)

end

mutual

/-- A value with the members of each object in the order of their keys. -/
def sortKeys : Json → Json
  | .arr items => .arr (sortKeysItems items)
  | .obj members => .obj ((sortKeysMembers members).mergeSort fun x y => x.1 ≤ y.1)
  | v => v

/-- Some values, each with the members of its objects in the order of their keys. -/
def sortKeysItems : List Json → List Json
  | [] => []
  | v :: rest => v.sortKeys :: sortKeysItems rest

/-- Some members, each with the members of the objects in its value in the order of their keys. -/
def sortKeysMembers : List (String × Json) → List (String × Json)
  | [] => []
  | (key, v) :: rest => (key, v.sortKeys) :: sortKeysMembers rest

end

/-- An optional value, `null` when absent. -/
def orNull : Option Json → Json
  | none => .null
  | some v => v

/-- A member that is left out when it has no value. -/
def memberIfSome (key : String) : Option Json → List (String × Json)
  | none => []
  | some v => [(key, v)]

/-- Why a text could not be decoded. -/
inductive Failure where
  /-- The text is JSON, but not of the expected form. -/
  | shape
  /-- The text is not JSON, or a part of it cannot be taken in. -/
  | malformed
  /-- The text ends too early. -/
  | truncated
  deriving DecidableEq, Repr, Inhabited

/-- The name of the kind of failure. -/
def Failure.category : Failure → String
  | .shape => "data"
  | .malformed => "syntax"
  | .truncated => "eof"

/-- The failure of a text that does not go on as it should. -/
def stuck : List Char → Failure
  | [] => .truncated
  | _ => .malformed

end Json

end ShaderShrink

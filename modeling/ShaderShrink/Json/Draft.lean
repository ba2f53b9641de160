import ShaderShrink.Json.Basic

/-!
# JSON texts as trees

A `Json.Draft` is what a text says, up to the place at which it goes wrong if it does. What is said
about such a place depends on what is to be done with the value there: a value may be passed over
without a look at what it stands for, it may be taken in, or it may be asked for the name of a
choice. A `Defect` holds the answers for all three, and since a draft keeps the order of the text, a
decoder that goes through it from left to right meets the first thing that is wrong first.

`Draft.pass` passes over a draft, `Draft.take` takes in a draft whole, and `Json.draft` is the draft
of a text without any defect.
-/

namespace ShaderShrink.Json

/-- A place where a text cannot be read. -/
structure Defect where
  /-- The failure of a reader that passes over the value; there is none at a string with half of a
  surrogate pair and at a number beyond the range of double precision. -/
  passing : Option Failure
  /-- The failure of a reader that takes in the value. -/
  taking : Failure
  /-- The failure of a reader that expects the name of a choice. -/
  naming : Failure
  deriving DecidableEq, Repr, Inhabited

namespace Defect

/-- A place at which every reader fails alike. -/
def all (failure : Failure) : Defect := ⟨some failure, failure, failure⟩

/-- A place at which nothing that can be read starts. -/
def missing (rest : List Char) : Defect := all (stuck rest)

end Defect

/-- The key of a member. -/
inductive Key where
  | name (text : String)
  | defect (defect : Defect)
  deriving Repr, Inhabited

/-- What a text says. -/
inductive Draft where
  | null
  | bool (value : Bool)
  /-- A number written with digits alone, other than `-0`. -/
  | int (value : Int)
  /-- A number with a fraction or an exponent, or `-0`. -/
  | fraction
  | str (text : String)
  /-- An array. `ending` is the failure of a reader that has read all items and finds neither the
  end of the array nor a comma. -/
  | arr (items : List Draft) (ending : Option Failure)
  /-- An object. `ending` is the failure of a reader that has read all members and finds neither the
  end of the object nor a comma. -/
  | obj (members : List (Key × Draft)) (ending : Option Failure)
  | defect (defect : Defect)
  deriving Repr, Inhabited

/-- The text of a key. -/
def Key.read : Key → Except Failure String
  | .name text => .ok text
  | .defect d => .error d.taking

/-- The text of a key that is the name of a choice. -/
def Key.readName : Key → Except Failure String
  | .name text => .ok text
  | .defect d => .error d.naming

/-- Ends the reading of an array or object. -/
def finish : Option Failure → Except Failure Unit
  | none => .ok ()
  | some failure => .error failure

namespace Draft

mutual

/-- How many arrays and objects are nested inside each other at the deepest place. -/
def depth : Draft → Nat
  | .arr items _ => depthItems items + 1
  | .obj members _ => depthMembers members + 1
  | _ => 0

/-- The depth of the deepest of some drafts. -/
def depthItems : List Draft → Nat
  | [] => 0
  | v :: rest => max v.depth (depthItems rest)

/-- The depth of the deepest value of some members. -/
def depthMembers : List (Key × Draft) → Nat
  | [] => 0
  | (_, v) :: rest => max v.depth (depthMembers rest)

end

mutual

/-- Passes over a draft. -/
def pass : Draft → Except Failure Unit
  | .arr items ending => do
    passItems items
    finish ending
  | .obj members ending => do
    passMembers members
    finish ending
  | .defect d => finish d.passing
  | _ => .ok ()

/-- Passes over some drafts. -/
def passItems : List Draft → Except Failure Unit
  | [] => .ok ()
  | v :: rest => do
    v.pass
    passItems rest

/-- Passes over some members. -/
def passMembers : List (Key × Draft) → Except Failure Unit
  | [] => .ok ()
  | (.name _, v) :: rest => do
    v.pass
    passMembers rest
  | (.defect d, v) :: rest => do
    finish d.passing
    v.pass
    passMembers rest

end

mutual

/-- Takes in a draft whole, which may have `room` levels of nesting. -/
def take (room : Nat) : Draft → Except Failure Unit
  | .arr items ending =>
    match room with
    | 0 => .error .malformed
    | room + 1 => do
      takeItems room items
      finish ending
  | .obj members ending =>
    match room with
    | 0 => .error .malformed
    | room + 1 => do
      takeMembers room members
      finish ending
  | .defect d => .error d.taking
  | _ => .ok ()

/-- Takes in some drafts whole. -/
def takeItems (room : Nat) : List Draft → Except Failure Unit
  | [] => .ok ()
  | v :: rest => do
    v.take room
    takeItems room rest

/-- Takes in some members whole. -/
def takeMembers (room : Nat) : List (Key × Draft) → Except Failure Unit
  | [] => .ok ()
  | (key, v) :: rest => do
    let _ ← key.read
    v.take room
    takeMembers room rest

end

mutual

/-- The value that a draft stands for. A number that is no integer is not of the expected form. -/
def value : Draft → Except Failure Json
  | .null => .ok .null
  | .bool b => .ok (.bool b)
  | .int n => .ok (.int n)
  | .fraction => .error .shape
  | .str text => .ok (.str text)
  | .arr items ending => do
    let items ← valueItems items
    finish ending
    return .arr items
  | .obj members ending => do
    let members ← valueMembers members
    finish ending
    return .obj members
  | .defect d => .error d.taking

/-- The values that some drafts stand for. -/
def valueItems : List Draft → Except Failure (List Json)
  | [] => .ok []
  | v :: rest => do
    let v ← v.value
    return v :: (← valueItems rest)

/-- The members that some drafts stand for. -/
def valueMembers : List (Key × Draft) → Except Failure (List (String × Json))
  | [] => .ok []
  | (key, v) :: rest => do
    let key ← key.read
    let v ← v.value
    return (key, v) :: (← valueMembers rest)

end

end Draft

mutual

/-- The draft of a text that holds a value. -/
def draft : Json → Draft
  | .null => .null
  | .bool b => .bool b
  | .int n => .int n
  | .str text => .str text
  | .arr items => .arr (draftItems items) none
  | .obj members => .obj (draftMembers members) none

/-- The drafts of some values. -/
def draftItems : List Json → List Draft
  | [] => []
  | v :: rest => v.draft :: draftItems rest

/-- The drafts of some members. -/
def draftMembers : List (String × Json) → List (Key × Draft)
  | [] => []
  | (key, v) :: rest => (.name key, v.draft) :: draftMembers rest

end

end ShaderShrink.Json

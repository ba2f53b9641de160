import ShaderShrink.Json.Reader

/-!
# Decoding JSON texts

A decoder turns the draft of a value into a value of some type, or says what is wrong with it. It is
told the `Source` of the value: one that comes straight from a text may nest only so many levels
deep, and the parts of it that nobody asks for are passed over unseen; one that was taken in whole
before has been looked through already. A text with several faults fails with the one that a reader
meets first.

A record type is decoded through `Json.record`, which accepts an object, whose unknown members are
passed over, and an array that gives the fields in their order. A sum type is decoded through
`Json.tagged`, which accepts an object with the tag as one of its members and an array with the tag
in front; it takes its value in whole, since the tag need not come first. `Json.labelled` is for sum
types whose tag and content are two members, and `Json.choice` for named values.
-/

namespace ShaderShrink.Json

/-- Where a value comes from. -/
inductive Source where
  /-- The value is read from a text in which `room` more levels of nesting are allowed. -/
  | text (room : Nat)
  /-- The value was taken in whole. -/
  | whole
  deriving DecidableEq, Repr

/-- What turns the draft of a value into a value of type `α`. -/
abbrev Decoder (α : Type) := Source → Draft → Except Failure α

/-- The most levels of nesting that a text may have. -/
def nestingLimit : Nat := 127

namespace Source

/-- The source of the parts of an array or object. -/
def enter : Source → Except Failure Source
  | .text 0 => .error .malformed
  | .text (room + 1) => .ok (.text room)
  | .whole => .ok .whole

/-- Passes over a value. -/
def passOver : Source → Draft → Except Failure Unit
  | .text _, v => v.pass
  | .whole, _ => .ok ()

/-- Takes in a value whole. -/
def takeIn : Source → Draft → Except Failure Unit
  | .text room, v => v.take room
  | .whole, _ => .ok ()

/-- The failure of an array with an element too many: in a text it is met where the end of the array
was expected. -/
def surplus : Source → Failure
  | .text _ => .malformed
  | .whole => .shape

/-- The failure of a value that is neither a name nor an object where a name of a choice was
expected. A text is not read further than to the start of such a value. -/
def notAName : Source → Draft → Failure
  | .text _, .defect d => d.naming
  | .text _, _ => .malformed
  | .whole, v => mismatch v

end Source

/-! ## Simple values -/

/-- Decodes a string. -/
def string : Decoder String
  | _, .str text => .ok text
  | _, v => .error (mismatch v)

/-- Decodes a truth value. -/
def boolean : Decoder Bool
  | _, .bool b => .ok b
  | _, v => .error (mismatch v)

/-- Decodes an integer from zero up to, but not including, `bound`. -/
def natBelow (bound : Nat) : Decoder Nat
  | _, .int n => if 0 ≤ n ∧ n < bound then .ok n.toNat else .error .shape
  | _, v => .error (mismatch v)

/-- Decodes a natural number of at most 64 bits. -/
def nat64 : Decoder Nat := natBelow word64

/-- Decodes a word of 64 bits without a sign. -/
def uint64 : Decoder UInt64 := fun source v => (nat64 source v).map UInt64.ofNat

/-- Decodes a word of 64 bits with a sign. -/
def int64 : Decoder Int64
  | _, .int n => if Int64.minValue.toInt ≤ n ∧ n ≤ Int64.maxValue.toInt then .ok (.ofInt n)
    else .error .shape
  | _, v => .error (mismatch v)

/-- Decodes a value that may be `null`. -/
def nullable {α : Type} (decode : Decoder α) : Decoder (Option α)
  | _, .null => .ok none
  | source, v => (decode source v).map some

/-- Decodes an array. -/
def list {α : Type} (decode : Decoder α) : Decoder (List α)
  | source, .arr items ending => do
    let inner ← source.enter
    let values ← items.mapM (decode inner)
    finish ending
    return values
  | _, v => .error (mismatch v)

/-- Decodes the members of an object. -/
def members {α : Type} (decode : Decoder α) : Decoder (List (String × α))
  | source, .obj fields ending => do
    let inner ← source.enter
    let values ← fields.mapM fun (key, v) => do
      let key ← key.read
      return (key, ← decode inner v)
    finish ending
    return values
  | _, v => .error (mismatch v)

/-- Decodes nothing: `null`, and in a value that was taken in whole also an object without
members. -/
def unit : Decoder Unit
  | _, .null => .ok ()
  | .whole, .obj [] _ => .ok ()
  | _, v => .error (mismatch v)

/-- The failure of an object without members where one with a name as its key was expected. -/
def noName (source : Source) : Option Failure → Failure
  | none => source.surplus
  | some failure => failure

/-- What has a name. -/
def named {α : Type} (names : List (String × α)) (name : String) : Except Failure α :=
  (names.lookup name).elim (.error .shape) .ok

/-- Decodes one of some named values. The name stands alone, or it is the key of the only member of
an object whose value says nothing. -/
def choice {α : Type} (names : List (String × α)) : Decoder α
  | _, .str name => named names name
  | source, .obj fields ending => do
    let inner ← source.enter
    match fields with
    | [] => .error (noName source ending)
    | (key, v) :: rest =>
      let value ← named names (← key.readName)
      unit inner v
      if !rest.isEmpty then throw source.surplus
      finish ending
      return value
  | source, v => .error (source.notAName v)

/-! ## Records -/

/-- The contents of a record: members by key, or fields in their order. -/
inductive Contents where
  | keyed (members : List (Key × Draft))
  | ordered (items : List Draft)
  deriving Repr, Inhabited

/-- A record whose fields are about to be decoded. -/
structure Record where
  /-- The source of the fields. -/
  source : Source
  /-- The keys of the fields in their order. -/
  keys : List String
  contents : Contents
  /-- The failure of a reader that has read all contents and does not find their end. -/
  ending : Option Failure

/-- A failure with the position in the contents of a record at which a reader meets it. -/
structure Fault where
  position : Nat
  failure : Failure
  deriving DecidableEq, Repr

/-- The fault that a reader meets first. -/
def Fault.first (a b : Fault) : Fault := if b.position < a.position then b else a

/-- What turns some fields of a record into a value of type `α`. -/
structure Fields (α : Type) where
  read : Record → Except Fault α

namespace Fields

/-- A value of its own and one that takes it: of two faults the first one counts. -/
def combine {α β : Type} : Except Fault (α → β) → Except Fault α → Except Fault β
  | .ok f, .ok a => .ok (f a)
  | .ok _, .error e => .error e
  | .error e, .ok _ => .error e
  | .error e, .error e' => .error (e.first e')

instance : Applicative Fields where
  pure a := ⟨fun _ => .ok a⟩
  seq f x := ⟨fun r => combine (f.read r) ((x ()).read r)⟩

end Fields

namespace Record

/-- The position at which a reader has read all contents. -/
def length (r : Record) : Nat :=
  match r.contents with
  | .keyed members => members.length
  | .ordered items => items.length

/-- The first member with a key, and its position. -/
def findKey? (key : String) : Nat → List (Key × Draft) → Option (Nat × Draft)
  | _, [] => none
  | position, (.name name, v) :: rest =>
    if name = key then some (position, v) else findKey? key (position + 1) rest
  | position, (.defect _, _) :: rest => findKey? key (position + 1) rest

/-- The value of a field, if it is given, and its position. -/
def find? (r : Record) (key : String) : Option (Nat × Draft) :=
  match r.contents with
  | .keyed members => findKey? key 0 members
  | .ordered items => items[r.keys.idxOf key]?.map fun v => (r.keys.idxOf key, v)

/-- A field that is missing, which shows when all contents are read and their end is found. -/
def missing {α : Type} (r : Record) : Except Fault α := .error ⟨r.length + 1, .shape⟩

/-- The first fault of the members of a record that does not hang on their values: a defective or
repeated key, or an unknown member that cannot be passed over. -/
def faultOfMembers (r : Record) (seen : List String) :
    Nat → List (Key × Draft) → Option Fault
  | position, [] => r.ending.map fun failure => ⟨position, failure⟩
  | position, (.defect d, _) :: _ => some ⟨position, d.taking⟩
  | position, (.name name, v) :: rest =>
    if r.keys.contains name then
      if seen.contains name then some ⟨position, .shape⟩
      else r.faultOfMembers (name :: seen) (position + 1) rest
    else
      match r.source.passOver v with
      | .error failure => some ⟨position, failure⟩
      | .ok _ => r.faultOfMembers seen (position + 1) rest

/-- The first fault of the contents of a record that does not hang on the values of its fields. -/
def fault? (r : Record) : Option Fault :=
  match r.contents with
  | .keyed members => r.faultOfMembers [] 0 members
  | .ordered items =>
    if items.length > r.keys.length then some ⟨r.keys.length, r.source.surplus⟩
    else r.ending.map fun failure => ⟨items.length, failure⟩

/-- Decodes a record. -/
def decode {α : Type} (r : Record) (fields : Fields α) : Except Failure α :=
  match fields.read r, r.fault? with
  | .ok value, none => .ok value
  | .ok _, some fault => .error fault.failure
  | .error fault, none => .error fault.failure
  | .error fault, some fault' => .error (fault.first fault').failure

end Record

/-- The value of a field at a position. -/
def fieldAt {α : Type} (r : Record) (decode : Decoder α) (position : Nat) (v : Draft) :
    Except Fault α :=
  (decode r.source v).mapError fun failure => ⟨position, failure⟩

/-- A field that has to be given. -/
def required {α : Type} (key : String) (decode : Decoder α) : Fields α where
  read r :=
    match r.find? key with
    | some (position, v) => fieldAt r decode position v
    | none => r.missing

/-- A field with a value for when it is not given. -/
def withDefault {α : Type} (key : String) (value : α) (decode : Decoder α) : Fields α where
  read r :=
    match r.find? key with
    | some (position, v) => fieldAt r decode position v
    | none => .ok value

/-- A field that may be `null`, and that need not be given where fields have keys. -/
def optional {α : Type} (key : String) (decode : Decoder α) : Fields (Option α) where
  read r :=
    match r.find? key, r.contents with
    | some (position, v), _ => fieldAt r (nullable decode) position v
    | none, .keyed _ => .ok none
    | none, .ordered _ => r.missing

/-- A field that may be `null` and need not be given. -/
def omissible {α : Type} (key : String) (decode : Decoder α) : Fields (Option α) :=
  withDefault key none (nullable decode)

/-- Decodes a record with the given keys, in their order. -/
def record {α : Type} (keys : List String) (fields : Fields α) : Decoder α
  | source, .obj members ending => do
    let inner ← source.enter
    Record.decode ⟨inner, keys, .keyed members, ending⟩ fields
  | source, .arr items ending => do
    let inner ← source.enter
    Record.decode ⟨inner, keys, .ordered items, ending⟩ fields
  | _, v => .error (mismatch v)

/-! ## Tagged values -/

/-- The name that a tag gives. Where the value is part of another one that was taken in whole, the
tag may also be the position of the name among `names`. -/
def tagName (names : List String) : Decoder String
  | _, .str name => if name ∈ names then .ok name else .error .shape
  | .whole, .int n => if 0 ≤ n then (names[n.toNat]?).elim (.error .shape) .ok else .error .shape
  | _, v => .error (mismatch v)

/-- Takes in the members of a tagged value: gives the name that the tag gives, if there is a tag,
and the other members. -/
def splitTag (tagKey : String) (names : List String) (source : Source) (tag : Option String) :
    List (Key × Draft) → Except Failure (Option String × List (Key × Draft))
  | [] => .ok (tag, [])
  | (key, v) :: rest => do
    if (← key.read) = tagKey then
      if tag.isSome then throw .shape
      let name ← tagName names source v
      splitTag tagKey names source (some name) rest
    else
      source.takeIn v
      let (tag, others) ← splitTag tagKey names source tag rest
      return (tag, (key, v) :: others)

/-- Decodes a tagged value: the member `tagKey` holds one of `names`, which tells `body` how to read
the rest. -/
def tagged {α : Type} (tagKey : String) (names : List String)
    (body : String → Draft → Except Failure α) : Decoder α
  | source, .obj members ending => do
    let inner ← source.enter
    let (tag, rest) ← splitTag tagKey names inner none members
    finish ending
    match tag with
    | some name => body name (.obj rest none)
    | none => throw .shape
  | source, .arr items ending => do
    let inner ← source.enter
    match items with
    | [] =>
      finish ending
      throw .shape
    | tag :: rest =>
      let name ← tagName names inner tag
      rest.forM inner.takeIn
      finish ending
      body name (.arr rest none)
  | _, v => .error (mismatch v)

/-- Decodes the rest of a tagged value that has the given fields. -/
def variant {α : Type} (keys : List String) (fields : Fields α) (v : Draft) : Except Failure α :=
  record keys fields .whole v

/-- Decodes the rest of a tagged value that has no fields. Members are passed over. -/
def fieldless {α : Type} (value : α) : Draft → Except Failure α
  | .arr (_ :: _) _ => .error .shape
  | _ => .ok value

/-! ## Labelled values -/

/-- The first member with one of some keys, and the members behind it; those in front of it are
passed over. If there is none, the object ends. -/
def nextOf (keys : List String) (source : Source) (ending : Option Failure) :
    List (Key × Draft) → Except Failure (Option (String × Draft × List (Key × Draft)))
  | [] => do
    finish ending
    return none
  | (key, v) :: rest => do
    let name ← key.read
    if keys.contains name then return some (name, v, rest)
    source.passOver v
    nextOf keys source ending rest

/-- Decodes a value that consists of a name, which is the member `tagKey`, and what the decoder with
that name reads, which is the member `contentKey`. The content is taken in whole if it comes
first. In an array the name comes first and stands alone. -/
def labelled {α : Type} (tagKey contentKey : String) (decoders : List (String × Decoder α)) :
    Decoder α
  | source, .obj members ending => do
    let inner ← source.enter
    let next := nextOf [tagKey, contentKey] inner ending
    let some (first, v, rest) ← next members | throw .shape
    if first = tagKey then
      let decode ← choice decoders inner v
      let some (second, content, rest) ← next rest | throw .shape
      if second = tagKey then throw .shape
      let value ← decode inner content
      if (← next rest).isSome then throw .shape
      return value
    else
      inner.takeIn v
      let some (second, tag, rest) ← next rest | throw .shape
      if second ≠ tagKey then throw .shape
      let decode ← choice decoders inner tag
      let value ← decode .whole v
      if (← next rest).isSome then throw .shape
      return value
  | source, .arr items ending => do
    let inner ← source.enter
    match items with
    | [] =>
      finish ending
      throw .shape
    | tag :: contents =>
      let decode ← named decoders (← string inner tag)
      match contents with
      | [] =>
        finish ending
        throw .shape
      | content :: rest =>
        let value ← decode inner content
        if !rest.isEmpty then throw source.surplus
        finish ending
        return value
  | _, v => .error (mismatch v)

/-! ## Texts -/

/-- Decodes a text with the given decoder. -/
def decode {α : Type} (decoder : Decoder α) (text : String) : Except Failure α := do
  let (v, rest) := readText text
  let value ← decoder (.text nestingLimit) v
  if endsText rest then return value else throw .malformed

end ShaderShrink.Json

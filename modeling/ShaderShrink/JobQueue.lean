/-!
# Bounded queues

A queue of jobs between those who push and those who take. It holds a bounded number of items, it
can be closed, after which nothing more is accepted but what is queued can still be taken, and it
can be cancelled, after which nothing is accepted or taken.

The operations are the critical sections of the calls: each one looks at the whole state, and either
finishes and gives the state behind it, or finds that its caller has to wait (`none`), in which case
nothing changes and the call looks again later.
-/

namespace ShaderShrink

/-- A bounded queue. -/
structure JobQueue (α : Type) where
  /-- The most items that are queued at a time. -/
  capacity : Nat
  /-- The queued items, the one that is taken next in front. -/
  items : List α
  closed : Bool
  cancelled : Bool
  deriving DecidableEq, Repr

/-- Why an item was not accepted. The item is handed back. -/
inductive PushRefusal (α : Type) where
  | closed (item : α)
  | cancelled (item : α)
  deriving DecidableEq, Repr

/-- What is said about an item that was not accepted. -/
def PushRefusal.message {α : Type} : PushRefusal α → String
  | .closed _ => "queue is closed"
  | .cancelled _ => "queue is cancelled"

/-- The item that was not accepted. -/
def PushRefusal.item {α : Type} : PushRefusal α → α
  | .closed item | .cancelled item => item

/-- What a call that takes an item gives. -/
inductive TakeResult (α : Type) where
  | item (value : α)
  /-- The queue is closed and empty. -/
  | closed
  | cancelled
  deriving DecidableEq, Repr

namespace JobQueue

variable {α : Type}

/-- An empty queue. A queue has room for one item at least. -/
def new (capacity : Nat) : JobQueue α := ⟨max capacity 1, [], false, false⟩

/-- Pushes an item, unless the caller has to wait for room. -/
def push? (q : JobQueue α) (item : α) : Option (Except (PushRefusal α) Unit × JobQueue α) :=
  if q.cancelled then some (.error (.cancelled item), q)
  else if q.closed then some (.error (.closed item), q)
  else if q.items.length < q.capacity then some (.ok (), { q with items := q.items ++ [item] })
  else none

/-- Takes the item in front, unless the caller has to wait for one. -/
def take? (q : JobQueue α) : Option (TakeResult α × JobQueue α) :=
  if q.cancelled then some (.cancelled, q)
  else
    match q.items with
    | item :: items => some (.item item, { q with items })
    | [] => if q.closed then some (.closed, q) else none

/-- Stops accepting items. -/
def close (q : JobQueue α) : JobQueue α := { q with closed := true }

/-- Stops accepting and giving items. -/
def cancel (q : JobQueue α) : JobQueue α := { q with cancelled := true }

/-- The number of queued items. -/
def length (q : JobQueue α) : Nat := q.items.length

/-- Whether no item is queued. -/
def isEmpty (q : JobQueue α) : Bool := q.items.isEmpty

/-- A queue that the given items were pushed into, in their order, until one was not accepted. -/
def pushAll (q : JobQueue α) : List α → JobQueue α
  | [] => q
  | item :: rest =>
    match q.push? item with
    | some (.ok _, q) => q.pushAll rest
    | _ => q

end JobQueue

end ShaderShrink

import ShaderShrink.Arena.Node

/-!
# Arenas

An arena is the list of all nodes that were ever made for a program, addressed by position; the unit
is node 0, the root. A node is live if the root leads to it along child lists. Edits detach nodes
and leave them where they are, with their children, so that an edit can be undone; detached nodes
are only dropped when the arena is rebuilt from its program.

Parent links answer whether a node is still where it was seen: `isLive` follows them upwards and
checks at each step that the parent knows the child. Walks along child lists go down at most as many
steps as there are nodes, which suffices wherever no node lies below itself.
-/

namespace ShaderShrink

/-- A program as numbered nodes. -/
structure Arena where
  nodes : Array Node
  deriving DecidableEq, Repr, Inhabited

namespace Arena

/-- The number of the unit. -/
def root : NodeId := 0

/-- The number of nodes, detached ones included. -/
def size (a : Arena) : Nat := a.nodes.size

/-- The node with a number. -/
def get? (a : Arena) (id : NodeId) : Option Node := a.nodes[id]?

/-- The node with a number, which has to exist. -/
def find (a : Arena) (id : NodeId) : Except ArenaError Node :=
  match a.get? id with
  | some node => .ok node
  | none => .error (.unknownNode id)

/-- The children of a node. -/
def childrenOf (a : Arena) (id : NodeId) : List NodeId := (a.get? id).elim [] Node.children

/-- The parent of a node. -/
def parent? (a : Arena) (id : NodeId) : Option NodeId := (a.get? id).bind Node.parent

/-! ## Upwards -/

/-- Whether at most `steps` consistent links lead from a node to the root, the last one being the
root itself. -/
def attachedWithin (a : Arena) : Nat → NodeId → Bool
  | 0, _ => false
  | steps + 1, id =>
    id == root ||
      match a.parent? id with
      | none => false
      | some parent => (a.childrenOf parent).contains id && a.attachedWithin steps parent

/-- Whether consistent links lead from a node to the root. -/
def isLive (a : Arena) (id : NodeId) : Bool := a.attachedWithin (a.size + 1) id

/-- Whether `node` is a child of `parent`, and `parent` is live. -/
def hasChild (a : Arena) (parent node : NodeId) : Bool :=
  a.parent? node == some parent && (a.childrenOf parent).contains node && a.isLive parent

/-- The number of parent links that can be followed from a node, `steps` at most. -/
def depthWithin (a : Arena) : Nat → NodeId → Nat
  | 0, _ => 0
  | steps + 1, id =>
    match a.parent? id with
    | none => 0
    | some parent => a.depthWithin steps parent + 1

/-- The distance of a node from the root. -/
def depth (a : Arena) (id : NodeId) : Nat := a.depthWithin (a.size + 1) id

/-! ## Downwards -/

/-- A node and those below it, each before its children, down to `levels` levels. -/
def walk (a : Arena) : Nat → NodeId → List NodeId
  | 0, _ => []
  | levels + 1, id => id :: (a.childrenOf id).flatMap (a.walk levels)

/-- The live nodes, each before its children. -/
def preorder (a : Arena) : List NodeId := a.walk (a.size + 1) root

/-- The number of live nodes. -/
def liveCount (a : Arena) : Nat := a.preorder.length

/-- The number of nodes at and below a node, down to `levels` levels. -/
def sizeWithin (a : Arena) : Nat → NodeId → Nat
  | 0, _ => 0
  | levels + 1, id =>
    match a.get? id with
    | none => 0
    | some node => node.children.foldr (fun child sum => a.sizeWithin levels child + sum) 1

/-- The number of nodes at and below a node, which need not be live. -/
def sizeBelow (a : Arena) (id : NodeId) : Nat := a.sizeWithin (a.size + 1) id

end Arena

end ShaderShrink

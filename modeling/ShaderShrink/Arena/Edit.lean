import ShaderShrink.Arena.Basic

/-!
# Edits of an arena

The four ways in which an arena changes: a node is made (`alloc`), a child is put in the place of
another one (`replaceChild`), and children are taken out of a list or put into one (`removeChild`,
`insertChild`). An edit that is refused gives no new arena.

`replaceChild` takes a detached node or a child of the node that is replaced; in the second case the
node that is replaced keeps its list of children, so the same operation, with the two nodes
exchanged, undoes the edit.
-/

namespace ShaderShrink.Arena

/-- Changes the node with a number. -/
def modify (a : Arena) (id : NodeId) (f : Node → Node) : Arena := ⟨a.nodes.modify id f⟩

/-- Makes a node without children that is not attached. The second component is its number. -/
def alloc (a : Arena) (data : Payload) : Arena × NodeId :=
  (⟨a.nodes.push ⟨data, [], none⟩⟩, a.size)

/-- Sets the parent of a node. -/
def setParent (a : Arena) (id : NodeId) (parent : Option NodeId) : Arena :=
  a.modify id fun node => { node with parent }

/-- Makes a node the parent of all its children. -/
def adoptChildren (a : Arena) (id : NodeId) : Arena :=
  (a.childrenOf id).foldl (fun a child => a.setParent child (some id)) a

/-- Checks that a place among the children of `parent` may hold `candidate`. -/
def requireSlot (a : Arena) (parent : NodeId) (index : Nat) (candidate : NodeId) :
    Except ArenaError Unit := do
  let parentNode ← a.find parent
  let candidateNode ← a.find candidate
  match parentNode.data.slotKind? index with
  | none => throw (.notVariadic parent)
  | some slot =>
    if !slot.accepts candidateNode.data then
      throw (.slotMismatch parent slot candidateNode.data.formName)

/-- Checks that the children of `node` name it as their parent; the node `spared` need not. -/
def requireChildren (a : Arena) (node : NodeId) (spared : Option NodeId) :
    Except ArenaError Unit :=
  match (a.childrenOf node).find? fun c => a.parent? c != some node && some c != spared with
  | some child => .error (.replacementAttached child)
  | none => .ok ()

/-- Puts `replacement` in the place that `target` has under `parent`. -/
def replaceChild (a : Arena) (parent target replacement : NodeId) :
    Except ArenaError Arena := do
  let parentNode ← a.find parent
  let _ ← a.find target
  let replacementNode ← a.find replacement
  if !a.hasChild parent target then
    throw (.notAChild parent target)
  let position := parentNode.children.idxOf target
  a.requireSlot parent position replacement
  if replacement = target ∨ replacement = root then
    throw (.replacementAttached replacement)
  if replacementNode.parent ≠ none ∧ replacementNode.parent ≠ some target then
    throw (.replacementAttached replacement)
  a.requireChildren replacement (some target)
  let a := a.modify parent fun node =>
    { node with children := node.children.set position replacement }
  let a := (a.setParent target none).setParent replacement (some parent)
  return a.adoptChildren replacement

/-- Takes `node` out of the children of `parent`. The second component is the place that it had. -/
def removeChild (a : Arena) (parent node : NodeId) : Except ArenaError (Arena × Nat) := do
  let parentNode ← a.find parent
  if !parentNode.data.isVariadic then
    throw (.notVariadic parent)
  if !a.hasChild parent node then
    throw (.notAChild parent node)
  let position := parentNode.children.idxOf node
  let a := a.modify parent fun n => { n with children := n.children.eraseIdx position }
  return (a.setParent node none, position)

/-- Puts `node`, which has to be detached, among the children of `parent` at a place. -/
def insertChild (a : Arena) (parent : NodeId) (index : Nat) (node : NodeId) :
    Except ArenaError Arena := do
  let parentNode ← a.find parent
  if !parentNode.data.isVariadic then
    throw (.notVariadic parent)
  if index > parentNode.children.length then
    throw (.indexOutOfBounds parent index parentNode.children.length)
  a.requireSlot parent index node
  if (a.parent? node).isSome ∨ node = root then
    throw (.replacementAttached node)
  a.requireChildren node none
  let a := a.modify parent fun n => { n with children := n.children.insertIdx index node }
  return a.setParent node (some parent)

end ShaderShrink.Arena

import OpenCLTree.Proofs.Tree.Made

namespace OpenCLTree

namespace Node

mutual

/-- Changes the tokens of a tree and leaves the spans of its nodes. -/
def mapLeaves (change : Token → Token) : Node → Node
  | .mk kind span children => .mk kind span (mapLeavesOfChildren change children)

def mapLeavesOfChildren (change : Token → Token) : List Child → List Child
  | [] => []
  | .token field leaf :: rest => .token field (change leaf) :: mapLeavesOfChildren change rest
  | .node field inner :: rest => .node field (inner.mapLeaves change) :: mapLeavesOfChildren change rest

end

variable {place : Span → Span} {change change' : Token → Token}

theorem span_mapLeaves (change : Token → Token) (node : Node) :
    (node.mapLeaves change).span = node.span := by
  cases node
  rw [mapLeaves]
  rfl

theorem span_mapLeavesOfChildren (still : ∀ leaf, (change leaf).span = leaf.span)
    (children : List Child) :
    (mapLeavesOfChildren change children).map Child.span = children.map Child.span := by
  induction children with
  | nil => rw [mapLeavesOfChildren]
  | cons child rest ih =>
    cases child with
    | token field leaf =>
      rw [mapLeavesOfChildren, List.map_cons, List.map_cons, ih]
      exact congrArg (· :: _) (still leaf)
    | node field inner =>
      rw [mapLeavesOfChildren, List.map_cons, List.map_cons, ih]
      exact congrArg (· :: _) (span_mapLeaves change inner)

mutual

/-- Moving the tokens of a tree and changing them otherwise moves the whole tree. -/
theorem mapTokens_eq_mapLeaves (preserves : Span.Preserves place)
    (still : ∀ leaf, (change leaf).span = leaf.span) (node : Node)
    (made : ∀ inner ∈ node.descendants, inner.IsMade) :
    (node.mapTokens fun leaf => change (leaf.mapSpan place)) = (node.mapSpan place).mapLeaves change := by
  cases node with
  | mk kind span children =>
    rw [descendants_mk] at made
    obtain ⟨top, below⟩ := List.forall_mem_cons.mp made
    have same := mapTokensOfChildren_eq_mapLeaves preserves still children below
    have atTop : span = Child.extent children := top.span
    have spans := (span_mapLeavesOfChildren still (mapSpanOfChildren place children)).trans
      (span_mapSpanOfChildren place children)
    rw [mapTokens, mapSpan, mapLeaves, same, make, Child.extent_moved preserves spans top.nonempty, atTop]

theorem mapTokensOfChildren_eq_mapLeaves (preserves : Span.Preserves place)
    (still : ∀ leaf, (change leaf).span = leaf.span) (children : List Child)
    (made : ∀ inner ∈ preorder (Child.nodes children), inner.IsMade) :
    mapTokensOfChildren (fun leaf => change (leaf.mapSpan place)) children =
      mapLeavesOfChildren change (mapSpanOfChildren place children) := by
  match children with
  | [] => rw [mapTokensOfChildren, mapSpanOfChildren, mapLeavesOfChildren]
  | .token field leaf :: rest =>
    rw [mapTokensOfChildren, mapSpanOfChildren, mapLeavesOfChildren,
      mapTokensOfChildren_eq_mapLeaves preserves still rest made]
    rfl
  | .node field inner :: rest =>
    rw [Child.nodes, preorder_cons] at made
    obtain ⟨inside, later⟩ := List.forall_mem_append.mp made
    rw [mapTokensOfChildren, mapSpanOfChildren, mapLeavesOfChildren,
      mapTokens_eq_mapLeaves preserves still inner inside,
      mapTokensOfChildren_eq_mapLeaves preserves still rest later]

end

mutual

/-- Tokens may be changed before or after the tree is moved. -/
theorem mapSpan_mapLeaves (node : Node)
    (leaves : ∀ leaf ∈ node.leaves, (change leaf).mapSpan place = change' (leaf.mapSpan place)) :
    (node.mapLeaves change).mapSpan place = (node.mapSpan place).mapLeaves change' := by
  cases node with
  | mk kind span children =>
    rw [Node.leaves] at leaves
    rw [mapLeaves, mapSpan, mapSpan, mapLeaves, mapSpanOfChildren_mapLeaves children leaves]

theorem mapSpanOfChildren_mapLeaves (children : List Child)
    (leaves : ∀ leaf ∈ leavesOfChildren children,
      (change leaf).mapSpan place = change' (leaf.mapSpan place)) :
    mapSpanOfChildren place (mapLeavesOfChildren change children) =
      mapLeavesOfChildren change' (mapSpanOfChildren place children) := by
  match children with
  | [] => rw [mapLeavesOfChildren, mapSpanOfChildren, mapLeavesOfChildren]
  | .token field leaf :: rest =>
    rw [leavesOfChildren_token] at leaves
    obtain ⟨here, later⟩ := List.forall_mem_cons.mp leaves
    rw [mapLeavesOfChildren, mapSpanOfChildren, mapSpanOfChildren, mapLeavesOfChildren,
      mapSpanOfChildren_mapLeaves rest later]
    exact congrArg (Child.token field · :: _) here
  | .node field inner :: rest =>
    rw [leavesOfChildren_node] at leaves
    obtain ⟨inside, after⟩ := List.forall_mem_append.mp leaves
    rw [mapLeavesOfChildren, mapSpanOfChildren, mapSpanOfChildren, mapLeavesOfChildren,
      mapSpan_mapLeaves inner inside, mapSpanOfChildren_mapLeaves rest after]

end

end Node

end OpenCLTree

import OpenCLTree.Proofs.Tree.Descendants

namespace OpenCLTree

def Token.mapSpan (place : Span → Span) (token : Token) : Token :=
  { token with span := place token.span }

namespace Node

variable (place : Span → Span)

@[simp]
theorem kind_mapSpan (node : Node) : (node.mapSpan place).kind = node.kind := by
  cases node
  rw [mapSpan]
  rfl

@[simp]
theorem span_mapSpan (node : Node) : (node.mapSpan place).span = place node.span := by
  cases node
  rw [mapSpan]
  rfl

@[simp]
theorem children_mapSpan (node : Node) :
    (node.mapSpan place).children = mapSpanOfChildren place node.children := by
  cases node
  rw [mapSpan]
  rfl

mutual

@[simp]
theorem leaves_mapSpan (node : Node) :
    (node.mapSpan place).leaves = node.leaves.map (·.mapSpan place) := by
  cases node with
  | mk kind span children =>
    rw [mapSpan, leaves, leaves]
    exact leaves_mapSpanOfChildren children

@[simp]
theorem leaves_mapSpanOfChildren (children : List Child) :
    leavesOfChildren (mapSpanOfChildren place children) =
      (leavesOfChildren children).map (·.mapSpan place) := by
  match children with
  | [] => rw [mapSpanOfChildren, leavesOfChildren_nil, List.map_nil]
  | .token field leaf :: rest =>
    rw [mapSpanOfChildren, leavesOfChildren_token, leavesOfChildren_token,
      leaves_mapSpanOfChildren rest, List.map_cons]
    rfl
  | .node field inner :: rest =>
    rw [mapSpanOfChildren, leavesOfChildren_node, leavesOfChildren_node,
      leaves_mapSpan inner, leaves_mapSpanOfChildren rest, List.map_append]

end

@[simp]
theorem nodes_mapSpanOfChildren (children : List Child) :
    Child.nodes (mapSpanOfChildren place children) =
      (Child.nodes children).map (·.mapSpan place) := by
  induction children with
  | nil => rfl
  | cons child rest ih => cases child <;> simp [mapSpanOfChildren, Child.nodes, ih]

theorem preorder_mapSpan (pending : List Node) :
    preorder (pending.map (·.mapSpan place)) = (preorder pending).map (·.mapSpan place) := by
  fun_induction preorder pending with
  | case1 => rw [List.map_nil, preorder_nil]
  | case2 kind span children pending ih =>
    rw [List.map_append, ← nodes_mapSpanOfChildren] at ih
    rw [List.map_cons, mapSpan, preorder, ih, List.map_cons, mapSpan]

theorem descendants_mapSpan (node : Node) :
    (node.mapSpan place).descendants = node.descendants.map (·.mapSpan place) :=
  preorder_mapSpan place [node]

mutual

theorem mapSpan_mapSpan (other : Span → Span) (node : Node) :
    (node.mapSpan place).mapSpan other = node.mapSpan (other ∘ place) := by
  cases node with
  | mk kind span children =>
    rw [mapSpan, mapSpan, mapSpan, mapSpanOfChildren_mapSpanOfChildren other children]
    rfl

theorem mapSpanOfChildren_mapSpanOfChildren (other : Span → Span) (children : List Child) :
    mapSpanOfChildren other (mapSpanOfChildren place children) =
      mapSpanOfChildren (other ∘ place) children := by
  match children with
  | [] => rw [mapSpanOfChildren, mapSpanOfChildren, mapSpanOfChildren]
  | .token field leaf :: rest =>
    rw [mapSpanOfChildren, mapSpanOfChildren, mapSpanOfChildren,
      mapSpanOfChildren_mapSpanOfChildren other rest]
    rfl
  | .node field inner :: rest =>
    rw [mapSpanOfChildren, mapSpanOfChildren, mapSpanOfChildren, mapSpan_mapSpan other inner,
      mapSpanOfChildren_mapSpanOfChildren other rest]

end

mutual

@[simp]
theorem mapSpan_id (node : Node) : node.mapSpan id = node := by
  cases node with
  | mk kind span children =>
    rw [mapSpan, mapSpanOfChildren_id children]
    rfl

@[simp]
theorem mapSpanOfChildren_id (children : List Child) : mapSpanOfChildren id children = children := by
  match children with
  | [] => rw [mapSpanOfChildren]
  | .token field leaf :: rest =>
    rw [mapSpanOfChildren, mapSpanOfChildren_id rest]
    rfl
  | .node field inner :: rest =>
    rw [mapSpanOfChildren, mapSpan_id inner, mapSpanOfChildren_id rest]

end

mutual

/-- Two ways of moving a tree agree if they move its nodes and its leaves alike. -/
theorem mapSpan_congr {place other : Span → Span} (node : Node)
    (nodes : ∀ inner ∈ node.descendants, place inner.span = other inner.span)
    (leaves : ∀ leaf ∈ node.leaves, place leaf.span = other leaf.span) :
    node.mapSpan place = node.mapSpan other := by
  cases node with
  | mk kind span children =>
    rw [descendants_mk] at nodes
    rw [Node.leaves] at leaves
    obtain ⟨top, below⟩ := List.forall_mem_cons.mp nodes
    have same : place span = other span := top
    rw [mapSpan, mapSpan, same, mapSpanOfChildren_congr children below leaves]

theorem mapSpanOfChildren_congr {place other : Span → Span} (children : List Child)
    (nodes : ∀ inner ∈ preorder (Child.nodes children), place inner.span = other inner.span)
    (leaves : ∀ leaf ∈ leavesOfChildren children, place leaf.span = other leaf.span) :
    mapSpanOfChildren place children = mapSpanOfChildren other children := by
  match children with
  | [] => rw [mapSpanOfChildren, mapSpanOfChildren]
  | .token field leaf :: rest =>
    rw [leavesOfChildren_token] at leaves
    obtain ⟨here, later⟩ := List.forall_mem_cons.mp leaves
    rw [mapSpanOfChildren, mapSpanOfChildren, here, mapSpanOfChildren_congr rest nodes later]
  | .node field inner :: rest =>
    rw [Child.nodes, preorder_cons] at nodes
    rw [leavesOfChildren_node] at leaves
    obtain ⟨inside, after⟩ := List.forall_mem_append.mp nodes
    obtain ⟨leavesInside, leavesAfter⟩ := List.forall_mem_append.mp leaves
    rw [mapSpanOfChildren, mapSpanOfChildren, mapSpan_congr inner inside leavesInside,
      mapSpanOfChildren_congr rest after leavesAfter]

end

theorem mapSpanOfChildren_toChild (nodes : List Node) :
    mapSpanOfChildren place (nodes.map Node.toChild) =
      (nodes.map (·.mapSpan place)).map Node.toChild := by
  induction nodes with
  | nil => rfl
  | cons node rest ih =>
    simp only [List.map_cons, toChild, mapSpanOfChildren] at ih ⊢
    rw [ih]

theorem childTokens_mapSpan (node : Node) :
    (node.mapSpan place).childTokens = node.childTokens.map (·.mapSpan place) := by
  rw [childTokens, childTokens, children_mapSpan]
  induction node.children with
  | nil =>
    rw [mapSpanOfChildren]
    rfl
  | cons child rest ih => cases child <;> simp [mapSpanOfChildren, Child.tokens, ih, Token.mapSpan]

theorem fieldNode?_mapSpan (node : Node) (field : Field) :
    (node.mapSpan place).fieldNode? field = (node.fieldNode? field).map (·.mapSpan place) := by
  simp only [fieldNode?, field?, fieldsNamed, children_mapSpan]
  induction node.children with
  | nil =>
    rw [mapSpanOfChildren]
    rfl
  | cons child rest ih =>
    cases child with
    | token at_field leaf | node at_field leaf =>
      rw [mapSpanOfChildren, List.filter_cons, List.filter_cons]
      by_cases here : (at_field == some field) = true <;>
        simp_all [Child.field?, Child.node?]

end Node

/-- A token without its place. -/
def Token.unplaced (token : Token) : Token :=
  token.mapSpan fun _ => ⟨0, 0⟩

namespace Node

/-- A tree without its places. -/
def unplaced (node : Node) : Node :=
  node.mapSpan fun _ => ⟨0, 0⟩

def unplacedChildren (children : List Child) : List Child :=
  mapSpanOfChildren (fun _ => ⟨0, 0⟩) children

@[simp]
theorem unplaced_make (kind : NodeKind) (children : List Child) :
    (make kind children).unplaced = .mk kind ⟨0, 0⟩ (unplacedChildren children) := by
  rw [make, unplaced, mapSpan]
  rfl

@[simp]
theorem unplacedChildren_nil : unplacedChildren [] = [] := by
  rw [unplacedChildren, mapSpanOfChildren]

@[simp]
theorem unplacedChildren_token (leaf : Token) (rest : List Child) :
    unplacedChildren (leaf.toChild :: rest) = leaf.unplaced.toChild :: unplacedChildren rest := by
  rw [unplacedChildren, Token.toChild, mapSpanOfChildren]
  rfl

@[simp]
theorem unplacedChildren_tokenAs (leaf : Token) (field : Field) (rest : List Child) :
    unplacedChildren (leaf.as field :: rest) = leaf.unplaced.as field :: unplacedChildren rest := by
  rw [unplacedChildren, Token.as, mapSpanOfChildren]
  rfl

@[simp]
theorem unplacedChildren_node (node : Node) (rest : List Child) :
    unplacedChildren (node.toChild :: rest) = node.unplaced.toChild :: unplacedChildren rest := by
  rw [unplacedChildren, toChild, mapSpanOfChildren]
  rfl

@[simp]
theorem unplacedChildren_nodeAs (node : Node) (field : Field) (rest : List Child) :
    unplacedChildren (node.as field :: rest) = node.unplaced.as field :: unplacedChildren rest := by
  rw [unplacedChildren, as, mapSpanOfChildren]
  rfl

@[simp]
theorem unplacedChildren_append (front back : List Child) :
    unplacedChildren (front ++ back) = unplacedChildren front ++ unplacedChildren back := by
  induction front with
  | nil => simp
  | cons child front ih => cases child <;> simp_all [unplacedChildren, mapSpanOfChildren]

theorem childTokens_unplaced (node : Node) :
    node.unplaced.childTokens = node.childTokens.map Token.unplaced :=
  childTokens_mapSpan _ node

theorem fieldNode?_unplaced (node : Node) (field : Field) :
    node.unplaced.fieldNode? field = (node.fieldNode? field).map unplaced :=
  fieldNode?_mapSpan _ node field

theorem kind_unplaced (node : Node) : node.unplaced.kind = node.kind :=
  kind_mapSpan _ node

end Node

end OpenCLTree

import OpenCLTree.Syntax.Node

namespace OpenCLTree

namespace Child

/-- A child that fills no field. -/
def bare : Child → Child
  | .token _ leaf => .token none leaf
  | .node _ inner => .node none inner

@[simp]
theorem bare_toChild_token (leaf : Token) : (Token.toChild leaf).bare = leaf.toChild := rfl

@[simp]
theorem bare_toChild_node (inner : Node) : (Node.toChild inner).bare = inner.toChild := rfl

@[simp]
theorem bare_as_token (leaf : Token) (field : Field) : (leaf.as field).bare = leaf.toChild := rfl

@[simp]
theorem bare_as_node (inner : Node) (field : Field) : (inner.as field).bare = inner.toChild := rfl

@[simp]
theorem bare_bare (child : Child) : child.bare.bare = child.bare := by
  cases child <;> rfl

@[simp]
theorem bare_comp_bare : bare ∘ bare = bare := funext bare_bare

@[simp]
theorem bare_comp_toChild : bare ∘ Token.toChild = Token.toChild := rfl

@[simp]
theorem nodes_bare (children : List Child) : nodes (children.map bare) = nodes children := by
  induction children with
  | nil => rfl
  | cons child rest ih => cases child <;> simp [nodes, bare, ih]

theorem nodes_append (front back : List Child) :
    nodes (front ++ back) = nodes front ++ nodes back := by
  induction front with
  | nil => rfl
  | cons child rest ih => cases child <;> simp [nodes, ih]

@[simp]
theorem nodes_tokens (leaves : List Token) : nodes (leaves.map Token.toChild) = [] := by
  induction leaves with
  | nil => rfl
  | cons leaf rest ih => exact ih

@[simp]
theorem nodes_toChild (inner : List Node) : nodes (inner.map Node.toChild) = inner := by
  induction inner with
  | nil => rfl
  | cons node rest ih => exact congrArg (node :: ·) ih

end Child

namespace Node

@[simp]
theorem kind_make (kind : NodeKind) (children : List Child) : (make kind children).kind = kind :=
  rfl

@[simp]
theorem children_make (kind : NodeKind) (children : List Child) :
    (make kind children).children = children :=
  rfl

@[simp]
theorem childNodes_mk (kind : NodeKind) (span : Span) (children : List Child) :
    (mk kind span children).childNodes = Child.nodes children :=
  rfl

@[simp]
theorem leavesOfChildren_nil : leavesOfChildren [] = [] := by
  rw [leavesOfChildren]

@[simp]
theorem leavesOfChildren_token (leaf : Token) (rest : List Child) (field : Option Field) :
    leavesOfChildren (.token field leaf :: rest) = leaf :: leavesOfChildren rest := by
  rw [leavesOfChildren]

@[simp]
theorem leavesOfChildren_node (inner : Node) (rest : List Child) (field : Option Field) :
    leavesOfChildren (.node field inner :: rest) = inner.leaves ++ leavesOfChildren rest := by
  rw [leavesOfChildren]

@[simp]
theorem leaves_make (kind : NodeKind) (children : List Child) :
    (make kind children).leaves = leavesOfChildren children := by
  rw [make, leaves]

@[simp]
theorem leavesOfChildren_append (front back : List Child) :
    leavesOfChildren (front ++ back) = leavesOfChildren front ++ leavesOfChildren back := by
  induction front with
  | nil => simp
  | cons child rest ih => cases child <;> simp [ih]

@[simp]
theorem leavesOfChildren_bare (children : List Child) :
    leavesOfChildren (children.map Child.bare) = leavesOfChildren children := by
  induction children with
  | nil => rfl
  | cons child rest ih => cases child <;> simp [Child.bare, ih]

@[simp]
theorem leavesOfChildren_tokens (leaves : List Token) :
    leavesOfChildren (leaves.map Token.toChild) = leaves := by
  induction leaves with
  | nil => simp
  | cons leaf rest ih => simp [Token.toChild, ih]

end Node

end OpenCLTree

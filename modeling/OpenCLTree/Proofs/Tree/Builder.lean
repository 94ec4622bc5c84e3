import OpenCLTree.Proofs.Tree.FieldTable

namespace OpenCLTree

/-- A node that is being built: its kind as far as it is known, its children so far, and the
fields in use with the indices of the children that fill them. -/
structure NodeBuilder where
  kind : NodeKind
  children : List Child
  table : List (Field × List Nat)

namespace NodeBuilder

def ofKind (kind : NodeKind) : NodeBuilder :=
  ⟨kind, [], []⟩

/-- Changes the kind after some children have been added. -/
def setKind (builder : NodeBuilder) (kind : NodeKind) : NodeBuilder :=
  { builder with kind }

/-- Adds a child. The kind must list its field; only an error may have any. -/
def push? (builder : NodeBuilder) (child : Child) : Option NodeBuilder :=
  let children := builder.children ++ [child]
  match child.field? with
  | none => some { builder with children }
  | some field =>
    if builder.kind.hasField field || builder.kind == .error then
      let table := enterField field builder.children.length builder.table
      some { builder with children, table }
    else none

def pushAll? (builder : NodeBuilder) (children : List Child) : Option NodeBuilder :=
  children.foldlM push? builder

/-- The builder of a kind that has some children, entered in its table. -/
def holding (kind : NodeKind) (children : List Child) : NodeBuilder :=
  ⟨kind, children, fieldRows (Child.entries children)⟩

variable {kind : NodeKind}

theorem push?_holding {front : List Child} {child : Child}
    (listed : ∀ field ∈ child.field?, kind.hasField field = true) :
    (holding kind front).push? child = some (holding kind (front ++ [child])) := by
  unfold push? holding
  rw [Child.entries_snoc]
  cases labelled : child.field? with
  | none => simp
  | some field => simp [listed field labelled, fieldRows_snoc]

/-- Children whose fields are listed are added one after the other, each entered under its field. -/
theorem pushAll?_holding (front : List Child) {back : List Child}
    (listed : ∀ child ∈ back, ∀ field ∈ child.field?, kind.hasField field = true) :
    (holding kind front).pushAll? back = some (holding kind (front ++ back)) := by
  induction back generalizing front with
  | nil => simp [pushAll?]
  | cons child rest ih =>
    obtain ⟨here, later⟩ := List.forall_mem_cons.mp listed
    have pushed := ih (front ++ [child]) later
    rw [List.append_assoc, List.singleton_append] at pushed
    rw [pushAll?, List.foldlM_cons, push?_holding here]
    exact pushed

end NodeBuilder

/-- The kind under which a node of a kind begins to be built: a definition as a declaration, an
abstract pointer as a pointer, and any other node as what it is. -/
def NodeKind.draft : NodeKind → NodeKind
  | .functionDefinition | .kernelFunctionDefinition => .declaration
  | .abstractPointerDeclarator => .pointerDeclarator
  | kind => kind

/-- A draft lists all fields of the kind but the body that makes a definition of it. -/
theorem NodeKind.hasField_draft {kind : NodeKind} {field : Field}
    (listed : kind.hasField field = true) (noBody : field ≠ .body) :
    kind.draft.hasField field = true := by
  unfold draft
  split
  · cases field <;> first | rfl | contradiction
  · cases field <;> first | rfl | contradiction
  · cases field <;> first | rfl | contradiction
  · exact listed

/-- Whether a node can be built child by child, each checked against the kind of that moment: the
kind may be set after any children in front of its body, and the table is that of the node. -/
def Node.IsBuilt (node : Node) : Prop :=
  ∀ front back, node.children = front ++ back → (∀ child ∈ front, child.field? ≠ some .body) →
    ((NodeBuilder.ofKind node.kind.draft).pushAll? front).bind (fun builder =>
      (builder.setKind node.kind).pushAll? back) = some ⟨node.kind, node.children, node.fieldTable⟩

theorem Node.isBuilt {node : Node}
    (listed : ∀ child ∈ node.children, ∀ field ∈ child.field?, node.kind.hasField field = true) :
    node.IsBuilt := by
  intro front back split noBody
  rw [split] at listed
  obtain ⟨listedFront, listedBack⟩ := List.forall_mem_append.mp listed
  have drafted : ∀ child ∈ front, ∀ field ∈ child.field?,
      node.kind.draft.hasField field = true := by
    intro child member field fills
    refine NodeKind.hasField_draft (listedFront child member field fills) fun isBody => ?_
    exact noBody child member (isBody ▸ fills)
  have begun : (NodeBuilder.ofKind node.kind.draft).pushAll? front =
      some (.holding node.kind.draft front) := NodeBuilder.pushAll?_holding [] drafted
  have ended : (NodeBuilder.holding node.kind front).pushAll? back =
      some (.holding node.kind (front ++ back)) := NodeBuilder.pushAll?_holding front listedBack
  rw [begun, Option.bind_some, fieldTable_eq, split]
  exact ended

end OpenCLTree

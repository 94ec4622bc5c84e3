import OpenCLTree.Proofs.Tree.Leaves
import OpenCLTree.Syntax.Declarator

namespace OpenCLTree

/-- Whether a node of a kind can stand where a declarator stands. -/
def NodeKind.isDeclarator : NodeKind → Bool
  | .identifier | .fieldIdentifier | .pointerDeclarator | .parenthesizedDeclarator
  | .arrayDeclarator | .functionDeclarator => true
  | kind => kind.isAbstractDeclarator

theorem Child.mem_nodes_of_node? {children : List Child} {child : Child} {node : Node}
    (member : child ∈ children) (here : child.node? = some node) : node ∈ nodes children := by
  induction children with
  | nil => cases member
  | cons head rest ih =>
    rcases List.mem_cons.mp member with rfl | later
    · cases child <;> cases here
      exact List.mem_cons_self
    · cases head with
      | token => exact ih later
      | node => exact List.mem_cons_of_mem _ (ih later)

namespace Node

variable {node inner layer : Node} {leaf : Token} {children : List Child}

theorem mem_leaves_of_nodes (member : inner ∈ Child.nodes children) (below : leaf ∈ inner.leaves) :
    leaf ∈ leavesOfChildren children := by
  induction children with
  | nil => cases member
  | cons child rest ih =>
    cases child with
    | token => exact leavesOfChildren_token .. ▸ List.mem_cons_of_mem _ (ih member)
    | node field head =>
      rw [leavesOfChildren_node, List.mem_append]
      rcases List.mem_cons.mp member with rfl | later
      · exact .inl below
      · exact .inr (ih later)

theorem mem_leaves_of_tokens (member : leaf ∈ Child.tokens children) :
    leaf ∈ leavesOfChildren children := by
  induction children with
  | nil => cases member
  | cons child rest ih =>
    cases child with
    | token field head =>
      rw [leavesOfChildren_token, List.mem_cons]
      exact (List.mem_cons.mp member).imp_right ih
    | node => exact leavesOfChildren_node .. ▸ List.mem_append_right _ (ih member)

theorem leaves_mk (kind : NodeKind) (span : Span) (children : List Child) :
    (mk kind span children).leaves = leavesOfChildren children := by
  rw [leaves]

theorem mem_leaves_of_childNodes (member : inner ∈ node.childNodes) (below : leaf ∈ inner.leaves) :
    leaf ∈ node.leaves := by
  cases node
  rw [leaves_mk]
  exact mem_leaves_of_nodes member below

theorem mem_leaves_of_childTokens (member : leaf ∈ node.childTokens) : leaf ∈ node.leaves := by
  cases node
  rw [leaves_mk]
  exact mem_leaves_of_tokens member

theorem mem_leaves_of_fieldNode? {field : Field} (here : node.fieldNode? field = some inner)
    (below : leaf ∈ inner.leaves) : leaf ∈ node.leaves := by
  obtain ⟨child, found, isNode⟩ := Option.bind_eq_some_iff.mp here
  have member := (List.mem_filter.mp (List.mem_of_head? found)).1
  exact mem_leaves_of_childNodes (Child.mem_nodes_of_node? member isNode) below

mutual

/-- The layers of a declarator lie inside it. -/
theorem mem_leaves_of_declaratorLayers (node : Node) (member : layer ∈ node.declaratorLayers)
    (below : leaf ∈ layer.leaves) : leaf ∈ node.leaves := by
  cases node with
  | mk kind span children =>
    rw [declaratorLayers, List.mem_cons] at member
    rcases member with rfl | inside
    · exact below
    · rw [leaves_mk]
      split at inside
      · cases inside
      split at inside
      · exact mem_leaves_of_firstNode children inside below
      · exact mem_leaves_of_declarator children inside below

theorem mem_leaves_of_firstNode (children : List Child) (member : layer ∈ layersOfFirstNode children)
    (below : leaf ∈ layer.leaves) : leaf ∈ leavesOfChildren children := by
  match children with
  | [] => simp [layersOfFirstNode] at member
  | .token field first :: rest =>
    rw [layersOfFirstNode] at member
    rw [leavesOfChildren_token]
    exact List.mem_cons_of_mem _ (mem_leaves_of_firstNode rest member below)
  | .node field first :: rest =>
    rw [layersOfFirstNode] at member
    rw [leavesOfChildren_node]
    exact List.mem_append_left _ (mem_leaves_of_declaratorLayers first member below)

theorem mem_leaves_of_declarator (children : List Child)
    (member : layer ∈ layersOfDeclarator children) (below : leaf ∈ layer.leaves) :
    leaf ∈ leavesOfChildren children := by
  match children with
  | [] => simp [layersOfDeclarator] at member
  | .token field first :: rest =>
    rw [layersOfDeclarator] at member
    rw [leavesOfChildren_token]
    split at member
    · cases member
    · exact List.mem_cons_of_mem _ (mem_leaves_of_declarator rest member below)
  | .node field first :: rest =>
    rw [layersOfDeclarator] at member
    rw [leavesOfChildren_node]
    split at member
    · exact List.mem_append_left _ (mem_leaves_of_declaratorLayers first member below)
    · exact List.mem_append_right _ (mem_leaves_of_declarator rest member below)

end

/-- The declared name is a leaf of the declarator. -/
theorem mem_leaves_of_declaratorName? (name : node.declaratorName? = some leaf) :
    leaf ∈ node.leaves := by
  obtain ⟨holder, atHolder, first⟩ := Option.bind_eq_some_iff.mp name
  obtain ⟨last, _⟩ := Option.filter_eq_some_iff.mp atHolder
  exact mem_leaves_of_declaratorLayers node (List.mem_of_getLast? last)
    (mem_leaves_of_childTokens (List.mem_of_head? first))

/-- So are the names of the parameters. -/
theorem mem_leaves_of_parameterNames {name : String} (member : name ∈ node.parameterNames) :
    ∃ leaf ∈ node.leaves, leaf.text = name := by
  unfold parameterNames at member
  split at member
  · cases member
  · rename_i parameters found
    obtain ⟨parameter, listed, named⟩ := List.mem_filterMap.mp member
    obtain ⟨leaf, atName, rfl⟩ := Option.map_eq_some_iff.mp named
    obtain ⟨declarator, atDeclarator, name⟩ := Option.bind_eq_some_iff.mp atName
    obtain ⟨holder, atHolder, atParameters⟩ := Option.bind_eq_some_iff.mp found
    obtain ⟨_, _, last⟩ := Option.bind_eq_some_iff.mp atHolder
    refine ⟨leaf, ?_, rfl⟩
    refine mem_leaves_of_declaratorLayers node (List.mem_filter.mp (List.mem_of_getLast? last)).1 ?_
    refine mem_leaves_of_fieldNode? atParameters ?_
    refine mem_leaves_of_childNodes (List.mem_filter.mp listed).1 ?_
    exact mem_leaves_of_fieldNode? atDeclarator (mem_leaves_of_declaratorName? name)

end Node

end OpenCLTree

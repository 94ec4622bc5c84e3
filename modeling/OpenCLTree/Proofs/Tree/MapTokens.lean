import OpenCLTree.Proofs.Tree.Leaves
import OpenCLTree.Syntax.Declarator
import OpenCLTree.Syntax.Vector

namespace OpenCLTree

namespace Node

mutual

/-- Changes the tokens of a tree. The nodes reach over the changed tokens. -/
def mapTokens (change : Token → Token) : Node → Node
  | .mk kind _ children => .make kind (mapTokensOfChildren change children)

def mapTokensOfChildren (change : Token → Token) : List Child → List Child
  | [] => []
  | .token field leaf :: rest => .token field (change leaf) :: mapTokensOfChildren change rest
  | .node field inner :: rest => .node field (inner.mapTokens change) :: mapTokensOfChildren change rest

end

end Node

namespace Child

/-- Changes the tokens of a child. -/
def mapTokens (change : Token → Token) : Child → Child
  | .token field leaf => .token field (change leaf)
  | .node field inner => .node field (inner.mapTokens change)

variable (change : Token → Token)

@[simp]
theorem mapTokens_token (leaf : Token) : leaf.toChild.mapTokens change = (change leaf).toChild := rfl

@[simp]
theorem mapTokens_tokenAs (leaf : Token) (field : Field) :
    (leaf.as field).mapTokens change = (change leaf).as field := rfl

@[simp]
theorem mapTokens_node (node : Node) :
    node.toChild.mapTokens change = (node.mapTokens change).toChild := rfl

@[simp]
theorem mapTokens_nodeAs (node : Node) (field : Field) :
    (node.as field).mapTokens change = (node.mapTokens change).as field := rfl

@[simp]
theorem mapTokens_comp_token :
    mapTokens change ∘ Token.toChild = Token.toChild ∘ change := rfl

@[simp]
theorem mapTokens_comp_node :
    mapTokens change ∘ Node.toChild = Node.toChild ∘ Node.mapTokens change := rfl

end Child

namespace Node

variable (change : Token → Token)

theorem mapTokensOfChildren_eq (children : List Child) :
    mapTokensOfChildren change children = children.map (Child.mapTokens change) := by
  induction children with
  | nil => rw [mapTokensOfChildren, List.map_nil]
  | cons child rest ih => cases child <;> rw [mapTokensOfChildren, ih, List.map_cons] <;> rfl

theorem mapTokens_mk (kind : NodeKind) (span : Span) (children : List Child) :
    (mk kind span children).mapTokens change = make kind (children.map (Child.mapTokens change)) := by
  rw [mapTokens, mapTokensOfChildren_eq]

@[simp]
theorem mapTokens_make (kind : NodeKind) (children : List Child) :
    (make kind children).mapTokens change = make kind (children.map (Child.mapTokens change)) :=
  mapTokens_mk change kind _ children

@[simp]
theorem mapTokens_ofToken (kind : NodeKind) (leaf : Token) :
    (ofToken kind leaf).mapTokens change = ofToken kind (change leaf) := by
  simp [ofToken]

@[simp]
theorem kind_mapTokens (node : Node) : (node.mapTokens change).kind = node.kind := by
  cases node
  rw [mapTokens]
  rfl

@[simp]
theorem children_mapTokens (node : Node) :
    (node.mapTokens change).children = node.children.map (Child.mapTokens change) := by
  cases node
  rw [mapTokens_mk]
  rfl

@[simp]
theorem isAbstract_mapTokens (node : Node) :
    (node.mapTokens change).isAbstract = node.isAbstract := by
  rw [isAbstract, isAbstract, kind_mapTokens]

theorem nodes_mapTokens (children : List Child) :
    Child.nodes (children.map (Child.mapTokens change)) =
      (Child.nodes children).map (mapTokens change) := by
  induction children with
  | nil => rfl
  | cons child rest ih =>
    cases child with
    | token => exact ih
    | node field inner => exact congrArg (inner.mapTokens change :: ·) ih

theorem tokens_mapTokens (children : List Child) :
    Child.tokens (children.map (Child.mapTokens change)) = (Child.tokens children).map change := by
  induction children with
  | nil => rfl
  | cons child rest ih =>
    cases child with
    | token field leaf => exact congrArg (change leaf :: ·) ih
    | node => exact ih

theorem childNodes_mapTokens (node : Node) :
    (node.mapTokens change).childNodes = node.childNodes.map (mapTokens change) := by
  rw [childNodes, children_mapTokens, nodes_mapTokens]
  rfl

theorem childTokens_mapTokens (node : Node) :
    (node.mapTokens change).childTokens = node.childTokens.map change := by
  rw [childTokens, children_mapTokens, tokens_mapTokens]
  rfl

theorem fieldNode?_mapTokens (node : Node) (field : Field) :
    (node.mapTokens change).fieldNode? field = (node.fieldNode? field).map (mapTokens change) := by
  simp only [fieldNode?, field?, fieldsNamed, children_mapTokens]
  induction node.children with
  | nil => rfl
  | cons child rest ih =>
    cases child with
    | token at_field leaf | node at_field leaf =>
      rw [List.map_cons, Child.mapTokens, List.filter_cons, List.filter_cons]
      by_cases here : (at_field == some field) = true <;>
        simp_all [Child.field?, Child.node?]

section Declarators

mutual

theorem declaratorLayers_mapTokens (node : Node) :
    (node.mapTokens change).declaratorLayers = node.declaratorLayers.map (mapTokens change) := by
  cases node with
  | mk kind span children =>
    have top : (mk kind span children).mapTokens change =
        mk kind (Child.extent (children.map (Child.mapTokens change)))
          (children.map (Child.mapTokens change)) := mapTokens_mk change kind span children
    rw [top, declaratorLayers, declaratorLayers, List.map_cons, top]
    refine congrArg (List.cons _) ?_
    split
    · rfl
    split
    · exact layersOfFirstNode_mapTokens children
    · exact layersOfDeclarator_mapTokens children

theorem layersOfFirstNode_mapTokens (children : List Child) :
    layersOfFirstNode (children.map (Child.mapTokens change)) =
      (layersOfFirstNode children).map (mapTokens change) := by
  match children with
  | [] => simp [layersOfFirstNode]
  | .token field leaf :: rest =>
    rw [List.map_cons, Child.mapTokens, layersOfFirstNode, layersOfFirstNode]
    exact layersOfFirstNode_mapTokens rest
  | .node field inner :: rest =>
    rw [List.map_cons, Child.mapTokens, layersOfFirstNode, layersOfFirstNode]
    exact declaratorLayers_mapTokens inner

theorem layersOfDeclarator_mapTokens (children : List Child) :
    layersOfDeclarator (children.map (Child.mapTokens change)) =
      (layersOfDeclarator children).map (mapTokens change) := by
  match children with
  | [] => simp [layersOfDeclarator]
  | .token field leaf :: rest =>
    rw [List.map_cons, Child.mapTokens, layersOfDeclarator, layersOfDeclarator]
    split
    · rfl
    · exact layersOfDeclarator_mapTokens rest
  | .node field inner :: rest =>
    rw [List.map_cons, Child.mapTokens, layersOfDeclarator, layersOfDeclarator]
    split
    · exact declaratorLayers_mapTokens inner
    · exact layersOfDeclarator_mapTokens rest

end

theorem nameNode?_mapTokens (node : Node) :
    (node.mapTokens change).nameNode? = node.nameNode?.map (mapTokens change) := by
  rw [nameNode?, declaratorLayers_mapTokens, List.getLast?_map, nameNode?]
  cases node.declaratorLayers.getLast? with
  | none => rfl
  | some layer => simp [Option.filter, apply_ite]

theorem declaratorName?_mapTokens (node : Node) :
    (node.mapTokens change).declaratorName? = node.declaratorName?.map change := by
  rw [declaratorName?, nameNode?_mapTokens, declaratorName?]
  cases node.nameNode? with
  | none => rfl
  | some name => simp [childTokens_mapTokens]

theorem nameHolder?_mapTokens (node : Node) :
    (node.mapTokens change).nameHolder? = node.nameHolder?.map (mapTokens change) := by
  rw [nameHolder?, nameNode?_mapTokens, nameHolder?, declaratorLayers_mapTokens]
  cases node.nameNode? with
  | none => rfl
  | some name => simp [List.filter_map, Function.comp_def]

@[simp]
theorem declaresFunction_mapTokens (node : Node) :
    (node.mapTokens change).declaresFunction = node.declaresFunction := by
  rw [declaresFunction, nameHolder?_mapTokens, declaresFunction]
  cases node.nameHolder? <;> simp

/-- The names of parameters are the same when the texts of the tokens are. -/
theorem parameterNames_mapTokens (node : Node) (text : ∀ token, (change token).text = token.text) :
    (node.mapTokens change).parameterNames = node.parameterNames := by
  rw [parameterNames, nameHolder?_mapTokens, parameterNames]
  cases node.nameHolder? with
  | none => rfl
  | some holder =>
    simp only [Option.map_some, Option.bind_some, fieldNode?_mapTokens]
    cases holder.fieldNode? .parameters with
    | none => rfl
    | some parameters =>
      simp only [Option.map_some, childNodes_mapTokens, List.filter_map, List.filterMap_map]
      have kinds : (fun node : Node => node.kind == .parameterDeclaration) ∘
          mapTokens change = fun node => node.kind == .parameterDeclaration := by
        simp [Function.comp_def]
      rw [kinds]
      refine congrArg (List.filterMap · _) (funext fun parameter => ?_)
      simp only [Function.comp_apply, fieldNode?_mapTokens]
      cases parameter.fieldNode? .declarator with
      | none => rfl
      | some declarator =>
        simp only [Option.map_some, Option.bind_some, declaratorName?_mapTokens]
        cases declarator.declaratorName? <;> simp [text]

end Declarators

theorem hasVectorType_mapTokens (literal : Node) :
    (literal.mapTokens change).hasVectorType = literal.hasVectorType := by
  rw [hasVectorType, hasVectorType, fieldNode?_mapTokens]
  cases literal.fieldNode? .type with
  | none => rfl
  | some descriptor =>
    simp only [Option.map_some, Option.bind_some, fieldNode?_mapTokens]
    cases descriptor.fieldNode? .type <;> simp

mutual

@[simp]
theorem mayBeVector_mapTokens (node : Node) :
    (node.mapTokens change).mayBeVector = node.mayBeVector := by
  cases node with
  | mk kind span children =>
    have top : (mk kind span children).mapTokens change =
        mk kind (Child.extent (children.map (Child.mapTokens change)))
          (children.map (Child.mapTokens change)) := mapTokens_mk change kind span children
    have literal := hasVectorType_mapTokens change (mk kind span children)
    rw [top] at literal ⊢
    unfold mayBeVector
    split
    all_goals first
      | rfl
      | exact literal
      | exact firstMayBeVector_mapTokens children

theorem firstMayBeVector_mapTokens (children : List Child) :
    firstMayBeVector (children.map (Child.mapTokens change)) = firstMayBeVector children := by
  match children with
  | [] => simp [firstMayBeVector]
  | .token field leaf :: rest =>
    rw [List.map_cons, Child.mapTokens, firstMayBeVector, firstMayBeVector]
    exact firstMayBeVector_mapTokens rest
  | .node field inner :: rest =>
    rw [List.map_cons, Child.mapTokens, firstMayBeVector, firstMayBeVector]
    exact mayBeVector_mapTokens inner

end

@[simp]
theorem isPlainVectorType_mapTokens (descriptor : Node) :
    (descriptor.mapTokens change).isPlainVectorType = descriptor.isPlainVectorType := by
  rw [isPlainVectorType, isPlainVectorType, fieldNode?_mapTokens, fieldNode?_mapTokens]
  cases descriptor.fieldNode? .declarator <;> cases descriptor.fieldNode? .type <;> simp

end Node

end OpenCLTree

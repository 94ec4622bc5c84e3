import OpenCLTree.Syntax.Node

namespace OpenCLTree

def NodeKind.isAbstractDeclarator : NodeKind → Bool
  | .abstractPointerDeclarator | .abstractParenthesizedDeclarator | .abstractArrayDeclarator
  | .abstractFunctionDeclarator => true
  | _ => false

def NodeKind.isName (kind : NodeKind) : Bool :=
  kind == .identifier || kind == .fieldIdentifier

namespace Node

def isAbstract (node : Node) : Bool :=
  node.kind.isAbstractDeclarator

mutual

/-- A declarator and the declarators inside it, from the outermost to the name if there is
one. -/
def declaratorLayers : Node → List Node
  | .mk kind span children =>
    .mk kind span children ::
      if kind.isName then []
      else if kind = .parenthesizedDeclarator then layersOfFirstNode children
      else layersOfDeclarator children

/-- The layers of the first node among some children. -/
def layersOfFirstNode : List Child → List Node
  | [] => []
  | .token _ _ :: rest => layersOfFirstNode rest
  | .node _ inner :: _ => inner.declaratorLayers

/-- The layers of the first child that fills the declarator field. -/
def layersOfDeclarator : List Child → List Node
  | [] => []
  | .token field _ :: rest => if field = some .declarator then [] else layersOfDeclarator rest
  | .node field inner :: rest =>
    if field = some .declarator then inner.declaratorLayers else layersOfDeclarator rest

end

/-- The node of the declared name. -/
def nameNode? (declarator : Node) : Option Node :=
  declarator.declaratorLayers.getLast?.filter (·.kind.isName)

/-- The declared name. -/
def declaratorName? (declarator : Node) : Option Token :=
  declarator.nameNode?.bind (·.childTokens.head?)

/-- The layer right around the declared name, parentheses apart: in `(*f)(int)` the pointer,
in `f(int)` the function. -/
def nameHolder? (declarator : Node) : Option Node :=
  declarator.nameNode?.bind fun _ =>
    (declarator.declaratorLayers.filter fun layer =>
      !layer.kind.isName && layer.kind != .parenthesizedDeclarator).getLast?

/-- Whether the declared name is a function, and not only a pointer to one. -/
def declaresFunction (declarator : Node) : Bool :=
  declarator.nameHolder?.any (·.kind == .functionDeclarator)

/-- The names of the parameters of a declared function. -/
def parameterNames (declarator : Node) : List String :=
  match declarator.nameHolder?.bind (·.fieldNode? .parameters) with
  | none => []
  | some parameters =>
    (parameters.childNodes.filter (·.kind == .parameterDeclaration)).filterMap fun parameter =>
      ((parameter.fieldNode? .declarator).bind declaratorName?).map (·.text)

end Node

end OpenCLTree

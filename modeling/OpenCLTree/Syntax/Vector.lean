import OpenCLTree.Syntax.Node

namespace OpenCLTree

namespace Node

/-- Whether a compound literal has a vector type. -/
def hasVectorType (literal : Node) : Bool :=
  (((literal.fieldNode? .type).bind (·.fieldNode? .type)).any (·.kind == .vectorType))

mutual

/-- Whether components can be selected from an expression. Literals have none, nor have
compound literals of other than vector types. Parentheses do not matter. -/
def mayBeVector : Node → Bool
  | .mk kind span children =>
    match kind with
    | .numberLiteral | .charLiteral | .stringLiteral | .concatenatedString => false
    | .compoundLiteralExpression => hasVectorType (.mk kind span children)
    | .parenthesizedExpression => firstMayBeVector children
    | _ => true

def firstMayBeVector : List Child → Bool
  | [] => true
  | .token _ _ :: rest => firstMayBeVector rest
  | .node _ inner :: _ => inner.mayBeVector

end

/-- Whether a type descriptor is just a vector type, without a declarator. -/
def isPlainVectorType (descriptor : Node) : Bool :=
  (descriptor.fieldNode? .declarator).isNone &&
    (descriptor.fieldNode? .type).any (·.kind == .vectorType)

end Node

end OpenCLTree

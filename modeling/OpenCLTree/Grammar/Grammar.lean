import OpenCLTree.Grammar.Rule
import OpenCLTree.Syntax.Operator
import OpenCLTree.Syntax.QualifierSet

namespace OpenCLTree

/-- Whether a declarator has a name: it must, as a variable or as a member; it cannot, in a
type name; or it may, in a parameter. -/
inductive DeclaratorMode
  | named | member | unnamed | either
  deriving DecidableEq

namespace DeclaratorMode

def allowsName (mode : DeclaratorMode) : Bool :=
  mode != .unnamed

def requiresName (mode : DeclaratorMode) : Bool :=
  mode == .named || mode == .member

end DeclaratorMode

/-- The qualifiers, attributes and type at the start of a declaration, as children in source
order, and the qualifiers once more as a set. -/
structure Specifiers where
  children : List Child
  qualifiers : QualifierSet

/-- The rules that call each other in circles. A rule takes a token before it calls
around, so the tokens that remain bound the depth of the calls. -/
structure Grammar where
  expression : Level → Rule Node
  castExpression : Rule Node
  unaryExpression : Rule Node
  initializer : Rule Node
  typeSpecifier : Rule Node
  declarationSpecifiers : Rule Specifiers
  declarator : DeclaratorMode → Rule (Option Node)
  statement : Rule Node

namespace Grammar

/-- The grammar that has no room to call anything. -/
def exhausted : Grammar where
  expression _ := .exhaust
  castExpression := .exhaust
  unaryExpression := .exhaust
  initializer := .exhaust
  typeSpecifier := .exhaust
  declarationSpecifiers := .exhaust
  declarator _ := .exhaust
  statement := .exhaust

end Grammar

def isTypeKeyword : Keyword → Bool
  | .void | .char | .short | .int | .long | .float | .double | .signed | .unsigned
  | .scalarType | .vectorType | .imageType | .samplerType | .opaqueType | .pipe
  | .struct | .union | .enum => true
  | _ => false

namespace Scopes

/-- Whether a token can start a type; a name must be declared as one. -/
def startsType (scopes : Scopes) (token : Token) : Bool :=
  match token.kind with
  | .identifier => scopes.isType token.text
  | .keyword keyword => isTypeKeyword keyword
  | _ => false

/-- Whether a token can start a declaration. -/
def startsDeclaration (scopes : Scopes) (token : Token) : Bool :=
  match token.kind with
  | .qualifier _ => true
  | .keyword .attributeKw => true
  | _ => scopes.startsType token

/-- Whether a token can start the type in a cast. Storage classes, `inline` and `kernel`
cannot stand there. -/
def startsTypeName (scopes : Scopes) (token : Token) : Bool :=
  match token.kind with
  | .qualifier qualifier =>
    match qualifier.category with
    | .storageClass | .inline | .kernel => false
    | _ => true
  | .keyword .attributeKw => true
  | _ => scopes.startsType token

end Scopes

namespace Rule

def startsType (token : Token) : Rule Bool := do
  pure ((← scopes).startsType token)

/-- Whether the token after `ahead` others can start a type name. -/
def startsTypeNameAt (ahead : Nat) : Rule Bool := do
  match ← peek ahead with
  | some token => pure ((← scopes).startsTypeName token)
  | none => pure false

end Rule

end OpenCLTree

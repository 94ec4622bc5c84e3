import OpenCLTree.Grammar.Statement

namespace OpenCLTree

open Rule

/-- The body of a function. The function is declared where it stands, and its parameters are
in scope in the body. -/
def definitionAfter (sub : Grammar) (kind : NodeKind) (specifiers : Specifiers)
    (declared : Declared) : Rule Node := do
  declareName declared.declarator .ordinary
  let body ← inScope do
    mapScopes fun scopes => declared.declarator.parameterNames.foldl (·.declare · .ordinary) scopes
    compoundStatement sub
  pure (.make kind (specifiers.children ++ declared.children ++ [body.as .body]))

/-- A kernel. One that is no function or has no body is reported and read as a declaration. -/
def kernelAfter (sub : Grammar) (specifiers : Specifiers) : Rule Node := do
  let declarator ← requiredDeclarator sub .named
  if declarator.declaresFunction then
    let attributes ← attributes sub
    if ← check (.punct .leftBrace) then
      definitionAfter sub .kernelFunctionDefinition specifiers ⟨declarator, attributes⟩
    else
      let name := (declarator.declaratorName?.map (·.text)).getD ""
      report (.missingBody name declarator.span)
      asDeclaration ⟨declarator, attributes⟩
  else
    report (.unexpectedToken .functionDeclarator declarator.kind.name declarator.span)
    asDeclaration ⟨declarator, ← attributes sub⟩
where
  asDeclaration (first : Declared) : Rule Node := do
    let rest ← declarationRest sub .ordinary first
    pure (.make .declaration (specifiers.children ++ rest))

/-- A declaration or definition at the top level. -/
def externalDeclaration (sub : Grammar) : Rule Node := do
  let specifiers ← declarationSpecifiers sub
  if specifiers.qualifiers.isKernel then kernelAfter sub specifiers
  else
    declarationAfter sub specifiers fun declared =>
      if declared.declarator.declaresFunction then
        some (definitionAfter sub .functionDefinition specifiers declared)
      else none

def topLevelItem (sub : Grammar) : Rule Node := do
  match ← currentKind with
  | some .pragma => pragmaLine
  | some .directive => directiveLine
  | _ => externalDeclaration sub

/-- All items up to the end of the source. -/
def sourceItems (sub : Grammar) : Rule (List Node) :=
  many do
    if ← atEnd then pure none
    else pure (some (← recovering .topLevel (topLevelItem sub)))

namespace Grammar

/-- The grammar whose rules call those of `sub`. -/
def calling (sub : Grammar) : Grammar where
  expression := OpenCLTree.expression sub
  castExpression := OpenCLTree.castExpression sub
  unaryExpression := OpenCLTree.unaryExpression sub
  initializer := OpenCLTree.initializer sub
  typeSpecifier := OpenCLTree.typeSpecifier sub
  declarationSpecifiers := OpenCLTree.declarationSpecifiers sub
  declarator := OpenCLTree.declarator sub
  statement := OpenCLTree.statement sub

/-- The grammar with room for `depth` calls inside each other. -/
def ofDepth : Nat → Grammar
  | 0 => exhausted
  | depth + 1 => (ofDepth depth).calling

end Grammar

end OpenCLTree

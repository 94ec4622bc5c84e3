import OpenCLTree.Grammar.Grammar

namespace OpenCLTree

open Rule

/-- The node around a qualifier. One whose category is already taken is reported and becomes
an error node. -/
def qualifierNode (qualifier : Qualifier) (token : Token) (set : QualifierSet) :
    Rule (Node × QualifierSet) := do
  match set.insert qualifier token.span with
  | .ok larger => pure (.ofToken qualifier.nodeKind token, larger)
  | .error earlier =>
    report (.duplicateQualifier qualifier.category earlier.span token.span)
    pure (.ofToken .error token, set)

/-- The type in a cast or in an operand of `sizeof`. -/
def typeDescriptor (sub : Grammar) : Rule Node := do
  let specifiers ← sub.declarationSpecifiers
  match ← sub.declarator .unnamed with
  | some declarator =>
    pure (.make .typeDescriptor (specifiers.children ++ [declarator.as .declarator]))
  | none => pure (.make .typeDescriptor specifiers.children)

/-- The name of an attribute, any word, and its arguments, which are types or expressions. -/
def attributeEntry (sub : Grammar) : Rule Node := do
  match ← current with
  | some token =>
    if token.kind.tokenClass = .identifier ∨ token.kind.tokenClass = .keyword then
      advance
      let name := (Node.ofToken .identifier token).as .name
      if ← check (.punct .leftParen) then
        let opener ← expect (.punct .leftParen)
        let arguments ← commaSeparated (.punct .rightParen) do
          if ← startsTypeNameAt 0 then typeDescriptor sub else sub.expression .assignment
        let closer ← expect (.punct .rightParen)
        let list := Node.make .argumentList (opener.toChild :: arguments ++ [closer.toChild])
        pure (.make .attributeEntry [name, list.as .arguments])
      else pure (.make .attributeEntry [name])
    else failExpecting .attributeName
  | none => failExpecting .attributeName

/-- `__attribute__((name, name(args)))` -/
def attributeSpecifier (sub : Grammar) : Rule Node := do
  let word ← expect (.keyword .attributeKw)
  let outer ← expect (.punct .leftParen)
  let inner ← expect (.punct .leftParen)
  let entries ← commaSeparated (.punct .rightParen) (attributeEntry sub)
  let innerEnd ← expect (.punct .rightParen)
  let outerEnd ← expect (.punct .rightParen)
  pure (.make .attributeSpecifier
    ([word.toChild, outer, inner] ++ entries ++ [innerEnd.toChild, outerEnd]))

/-- All attribute specifiers that follow. -/
def attributes (sub : Grammar) : Rule (List Child) :=
  many do
    if ← check (.keyword .attributeKw) then
      pure (some (← attributeSpecifier sub).toChild)
    else pure none

/-- Qualifiers and attributes, added to the specifiers so far. -/
def qualifiers (sub : Grammar) (specifiers : Specifiers) : Rule Specifiers :=
  loop (fun (soFar : Specifiers) => do
    match ← current with
    | none => pure (.inr soFar)
    | some token =>
      match token.kind with
      | .qualifier qualifier =>
        advance
        let (node, set) ← qualifierNode qualifier token soFar.qualifiers
        pure (.inl ⟨soFar.children ++ [node.toChild], set⟩)
      | .keyword .attributeKw =>
        let node ← attributeSpecifier sub
        pure (.inl ⟨soFar.children ++ [node.toChild], soFar.qualifiers⟩)
      | _ => pure (.inr soFar)) specifiers

end OpenCLTree

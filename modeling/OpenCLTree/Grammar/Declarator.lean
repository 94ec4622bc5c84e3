import OpenCLTree.Grammar.Specifiers
import OpenCLTree.Syntax.Declarator

namespace OpenCLTree

open Rule

/-- A declarator that must be there. -/
def requiredDeclarator (sub : Grammar) (mode : DeclaratorMode) : Rule Node := do
  match ← nested (sub.declarator mode) with
  | some declarator => pure declarator
  | none => failExpecting .declarator

/-- The qualifiers after the `*` of a pointer. -/
def pointerQualifiers : Rule (List Child) := do
  let collected ← loop (fun (soFar : Specifiers) => do
    match ← current with
    | none => pure (.inr soFar)
    | some token =>
      match token.kind with
      | .qualifier qualifier =>
        if qualifier.qualifiesPointer then
          advance
          let (node, set) ← qualifierNode qualifier token soFar.qualifiers
          pure (.inl ⟨soFar.children ++ [node.toChild], set⟩)
        else pure (.inr soFar)
      | _ => pure (.inr soFar)) ⟨[], .empty⟩
  pure collected.children

/-- Whether an opening parenthesis starts an inner declarator and not a parameter list. Where
a name is required it always does; elsewhere the token after it decides. -/
def parenOpensDeclarator (mode : DeclaratorMode) : Rule Bool := do
  if mode.requiresName then pure true
  else
    match ← peek 1 with
    | none => pure false
    | some token =>
      match token.kind with
      | .punct .star | .punct .leftParen | .punct .leftBracket => pure true
      | .identifier => pure (mode == .either && !(← scopes).isType token.text)
      | _ => pure false

/-- `(*name)` -/
def parenthesizedDeclarator (sub : Grammar) (mode : DeclaratorMode) : Rule Node := do
  let opener ← expect (.punct .leftParen)
  let inner ← requiredDeclarator sub mode
  let closer ← expect (.punct .rightParen)
  let kind := if inner.isAbstract then NodeKind.abstractParenthesizedDeclarator
    else .parenthesizedDeclarator
  pure (.make kind [opener, inner, closer])

/-- A declarator that may be missing, as a child. -/
def declaratorChild (declarator : Option Node) : List Child :=
  match declarator with
  | some node => [node.as .declarator]
  | none => []

def parameterDeclaration (sub : Grammar) : Rule Node := do
  let specifiers ← sub.declarationSpecifiers
  let declarator ← sub.declarator .either
  let attributes ← attributes sub
  pure (.make .parameterDeclaration
    (specifiers.children ++ declaratorChild declarator ++ attributes))

/-- Parameters with commas between them. An ellipsis is the last of them. -/
def parameters (sub : Grammar) : Rule (List Child) :=
  loop (fun (soFar : List Child) => do
    if ← check (.punct .rightParen) then pure (.inr soFar)
    else
      match ← accept (.punct .ellipsis) with
      | some ellipsis =>
        pure (.inr (soFar ++ [(Node.ofToken .variadicParameter ellipsis).toChild]))
      | none =>
        let parameter ← parameterDeclaration sub
        match ← accept (.punct .comma) with
        | some comma => pure (.inl (soFar ++ [parameter.toChild, comma.toChild]))
        | none => pure (.inr (soFar ++ [parameter.toChild]))) []

def parameterList (sub : Grammar) : Rule Node := do
  let opener ← expect (.punct .leftParen)
  let entries ← parameters sub
  let closer ← expect (.punct .rightParen)
  pure (.make .parameterList (opener.toChild :: entries ++ [closer.toChild]))

/-- The innermost part of a declarator: a name or an inner declarator in parentheses. A
declarator without a name may have neither. -/
def declaratorCore (sub : Grammar) (mode : DeclaratorMode) : Rule (Option Node) := do
  match ← current with
  | none => pure none
  | some token =>
    match token.kind with
    | .identifier =>
      if mode.allowsName then
        advance
        let kind := if mode = .member then NodeKind.fieldIdentifier else .identifier
        pure (some (.ofToken kind token))
      else pure none
    | .punct .leftParen =>
      if ← parenOpensDeclarator mode then
        pure (some (← nested (parenthesizedDeclarator sub mode)))
      else pure none
    | _ => pure none

/-- A suffix makes an abstract declarator of nothing and of an abstract declarator. -/
def suffixIsAbstract (inner : Option Node) : Bool :=
  inner.all Node.isAbstract

def arraySuffix (sub : Grammar) (inner : Option Node) : Rule Node := do
  let kind := if suffixIsAbstract inner then NodeKind.abstractArrayDeclarator
    else .arrayDeclarator
  let opener ← expect (.punct .leftBracket)
  let size ← unlessAt (.punct .rightBracket) (only (·.as .size) (sub.expression .assignment))
  let closer ← expect (.punct .rightBracket)
  pure (.make kind (declaratorChild inner ++ [opener.toChild] ++ size ++ [closer.toChild]))

def functionSuffix (sub : Grammar) (inner : Option Node) : Rule Node := do
  let kind := if suffixIsAbstract inner then NodeKind.abstractFunctionDeclarator
    else .functionDeclarator
  let list ← parameterList sub
  pure (.make kind (declaratorChild inner ++ [list.as .parameters]))

/-- A name or a parenthesized declarator with array and function suffixes. -/
def directDeclarator (sub : Grammar) (mode : DeclaratorMode) : Rule (Option Node) := do
  let core ← declaratorCore sub mode
  if core.isNone && mode.requiresName then failExpecting (.token .identifier)
  else
    loop (fun (inner : Option Node) => do
      match ← currentKind with
      | some (.punct .leftBracket) => pure (.inl (some (← arraySuffix sub inner)))
      | some (.punct .leftParen) => pure (.inl (some (← functionSuffix sub inner)))
      | _ => pure (.inr inner)) core

/-- A declarator; one without a name may be empty. -/
def declarator (sub : Grammar) (mode : DeclaratorMode) : Rule (Option Node) := do
  match ← accept (.punct .star) with
  | none => directDeclarator sub mode
  | some star =>
    let qualifiers ← pointerQualifiers
    let front := star.toChild :: qualifiers
    match ← sub.declarator mode with
    | some inner =>
      let kind := if inner.isAbstract then NodeKind.abstractPointerDeclarator
        else .pointerDeclarator
      pure (some (.make kind (front ++ [inner.as .declarator])))
    | none =>
      if mode.requiresName then failExpecting (.token .identifier)
      else pure (some (.make .abstractPointerDeclarator front))

end OpenCLTree

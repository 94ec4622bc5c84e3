import OpenCLTree.Grammar.Declarator
import OpenCLTree.Grammar.Directive

namespace OpenCLTree

open Rule

def isSizeModifier : TokenKind → Bool
  | .keyword .signed | .keyword .unsigned | .keyword .short | .keyword .long => true
  | _ => false

/-- A type such as `unsigned long int`. -/
def sizedTypeSpecifier : Rule Node := do
  let modifiers ← many do
    match ← current with
    | some token =>
      if isSizeModifier token.kind then
        advance
        pure (some token.toChild)
      else pure none
    | none => pure none
  match ← current with
  | some token =>
    match token.kind with
    | .keyword .char | .keyword .int | .keyword .float | .keyword .double =>
      advance
      pure (.make .sizedTypeSpecifier
        (modifiers ++ [(Node.ofToken .primitiveType token).toChild]))
    | _ => pure (.make .sizedTypeSpecifier modifiers)
  | none => pure (.make .sizedTypeSpecifier modifiers)

def pipeType (sub : Grammar) : Rule Node := do
  let word ← expect (.keyword .pipe)
  let element ← sub.typeSpecifier
  pure (.make .pipeType [word, element.as .type])

/-- The tag of a structure, union or enumeration. -/
def typeTag : Rule (List Child) := do
  match ← accept .identifier with
  | some name => pure [(Node.ofToken .typeIdentifier name).as .name]
  | none => pure []

/-- The width of a bit field, from its colon on. -/
def bitfieldWidth (sub : Grammar) : Rule (List Child) := do
  match ← accept (.punct .colon) with
  | some colon =>
    let value ← sub.expression .conditional
    pure [(Node.make .bitfieldClause [colon, value]).toChild]
  | none => pure []

/-- One member of a declaration list, or several separated by commas, up to the semicolon. A
bit field needs no name. -/
def fieldDeclarators (sub : Grammar) : Rule (List Child) :=
  loop (fun (soFar : List Child) => do
    let declarator ← unlessAt (.punct .colon)
      (only (·.as .declarator) (requiredDeclarator sub .member))
    let width ← bitfieldWidth sub
    let attributes ← attributes sub
    let members := soFar ++ declarator ++ width ++ attributes
    match ← accept (.punct .comma) with
    | some comma => pure (.inl (members ++ [comma.toChild]))
    | none => pure (.inr members)) []

def fieldDeclaration (sub : Grammar) : Rule Node := do
  let specifiers ← sub.declarationSpecifiers
  let members ← unlessAt (.punct .semicolon) (fieldDeclarators sub)
  let semicolon ← expect (.punct .semicolon)
  pure (.make .fieldDeclaration (specifiers.children ++ members ++ [semicolon.toChild]))

/-- The body of a structure or union. -/
def fieldDeclarationList (sub : Grammar) : Rule Node := do
  let opener ← expect (.punct .leftBrace)
  let members ← many do
    match ← currentKind with
    | none => pure none
    | some (.punct .rightBrace) => pure none
    | some .pragma => pure (some (← pragmaLine).toChild)
    | some .directive => pure (some (← directiveLine).toChild)
    | some _ => pure (some (← fieldDeclaration sub).toChild)
  let closer ← expect (.punct .rightBrace)
  pure (.make .fieldDeclarationList (opener.toChild :: members ++ [closer.toChild]))

def recordSpecifier (sub : Grammar) (keyword : Keyword) (kind : NodeKind) : Rule Node := do
  let word ← expect (.keyword keyword)
  let before ← attributes sub
  let tag ← typeTag
  let front := word.toChild :: before ++ tag
  if ← check (.punct .leftBrace) then
    let body ← nested (fieldDeclarationList sub)
    let after ← attributes sub
    pure (.make kind (front ++ [body.as .body] ++ after))
  else if tag.isEmpty then failExpecting .structName
  else pure (.make kind front)

/-- A name declared by an enumeration, with its value if one is given. -/
def enumerator (sub : Grammar) : Rule Node := do
  let name ← expect .identifier
  declare name.text .ordinary
  let child := (Node.ofToken .identifier name).as .name
  match ← accept (.punct .assign) with
  | some assign =>
    let value ← sub.expression .conditional
    pure (.make .enumerator [child, assign, value.as .value])
  | none => pure (.make .enumerator [child])

def enumeratorList (sub : Grammar) : Rule Node := do
  let opener ← expect (.punct .leftBrace)
  let entries ← commaSeparated (.punct .rightBrace) (enumerator sub)
  let closer ← expect (.punct .rightBrace)
  pure (.make .enumeratorList (opener.toChild :: entries ++ [closer.toChild]))

def enumSpecifier (sub : Grammar) : Rule Node := do
  let word ← expect (.keyword .enum)
  let before ← attributes sub
  let tag ← typeTag
  let front := word.toChild :: before ++ tag
  if ← check (.punct .leftBrace) then
    let body ← enumeratorList sub
    pure (.make .enumSpecifier (front ++ [body.as .body]))
  else if tag.isEmpty then failExpecting .enumName
  else pure (.make .enumSpecifier front)

/-- The current token as a type of its own. -/
def typeToken (kind : NodeKind) (token : Token) : Rule Node := do
  advance
  pure (.ofToken kind token)

def typeSpecifier (sub : Grammar) : Rule Node := do
  match ← current with
  | none => failExpecting .typeSpecifier
  | some token =>
    match token.kind with
    | .keyword .signed | .keyword .unsigned | .keyword .short | .keyword .long =>
      sizedTypeSpecifier
    | .keyword .void | .keyword .char | .keyword .int | .keyword .float | .keyword .double
    | .keyword .scalarType => typeToken .primitiveType token
    | .keyword .vectorType => typeToken .vectorType token
    | .keyword .imageType => typeToken .imageType token
    | .keyword .samplerType => typeToken .samplerType token
    | .keyword .opaqueType => typeToken .opaqueType token
    | .keyword .pipe => pipeType sub
    | .keyword .struct => recordSpecifier sub .struct .structSpecifier
    | .keyword .union => recordSpecifier sub .union .unionSpecifier
    | .keyword .enum => enumSpecifier sub
    | .identifier =>
      if (← scopes).isType token.text then typeToken .typeIdentifier token
      else failExpecting .typeSpecifier
    | _ => failExpecting .typeSpecifier

/-- The specifiers of a declaration: qualifiers and attributes around exactly one type. -/
def declarationSpecifiers (sub : Grammar) : Rule Specifiers := do
  let before ← qualifiers sub ⟨[], .empty⟩
  match ← current with
  | none => failExpecting .typeSpecifier
  | some token =>
    if ← startsType token then
      let type ← typeSpecifier sub
      qualifiers sub ⟨before.children ++ [type.as .type], before.qualifiers⟩
    else failExpecting .typeSpecifier

end OpenCLTree

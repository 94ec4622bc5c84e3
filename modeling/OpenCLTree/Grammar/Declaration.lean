import OpenCLTree.Grammar.TypeSpecifier

namespace OpenCLTree

open Rule

/-- Declares the name of a declarator in the innermost scope. -/
def declareName (declarator : Node) (sort : NameSort) : Rule Unit :=
  match declarator.declaratorName? with
  | some name => declare name.text sort
  | none => pure ()

/-- A declarator that has been read, and the attributes after it. -/
structure Declared where
  declarator : Node
  attributes : List Child

def Declared.children (declared : Declared) : List Child :=
  declared.declarator.as .declarator :: declared.attributes

def declared (sub : Grammar) : Rule Declared := do
  let declarator ← requiredDeclarator sub .named
  let attributes ← attributes sub
  pure ⟨declarator, attributes⟩

/-- A declarator with the initializer that may follow it. Its name is known from before the
initializer on. -/
def initDeclarator (sub : Grammar) (sort : NameSort) (declared : Declared) :
    Rule (List Child) := do
  declareName declared.declarator sort
  match ← accept (.punct .assign) with
  | some assign =>
    let value ← sub.initializer
    let node := Node.make .initDeclarator
      (declared.children ++ [assign.toChild, value.as .value])
    pure [node.as .declarator]
  | none => pure declared.children

/-- The declarators of a declaration, of which the first has been read, and the semicolon. -/
def declarationRest (sub : Grammar) (sort : NameSort) (first : Declared) :
    Rule (List Child) := do
  let children ← loop (fun (state : List Child × Declared) => do
    let declarator ← initDeclarator sub sort state.2
    let children := state.1 ++ declarator
    match ← accept (.punct .comma) with
    | some comma => pure (.inl (children ++ [comma.toChild], ← declared sub))
    | none => pure (.inr children)) ([], first)
  let semicolon ← expect (.punct .semicolon)
  pure (children ++ [semicolon.toChild])

/-- A declaration of variables and functions, or of type names, from after its specifiers. A
body may follow the first declarator if `definition` can read one. -/
def declarationAfter (sub : Grammar) (specifiers : Specifiers)
    (definition : Declared → Option (Rule Node)) : Rule Node := do
  let isTypedef := specifiers.qualifiers.isTypedef
  let kind := if isTypedef then NodeKind.typeDefinition else .declaration
  match ← accept (.punct .semicolon) with
  | some semicolon => pure (.make kind (specifiers.children ++ [semicolon.toChild]))
  | none =>
    let first ← declared sub
    let bodied := if isTypedef then none else definition first
    match bodied, ← check (.punct .leftBrace) with
    | some body, true => body
    | _, _ =>
      let rest ← declarationRest sub (if isTypedef then .type else .ordinary) first
      pure (.make kind (specifiers.children ++ rest))

/-- A declaration in a block. -/
def localDeclaration (sub : Grammar) : Rule Node := do
  let specifiers ← declarationSpecifiers sub
  declarationAfter sub specifiers fun _ => none

end OpenCLTree

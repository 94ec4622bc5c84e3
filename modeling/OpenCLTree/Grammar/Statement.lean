import OpenCLTree.Grammar.Declaration
import OpenCLTree.Grammar.Expression
import OpenCLTree.Grammar.Recovery

namespace OpenCLTree

open Rule

/-- Whether a token starts a declaration in a block. A type name before a colon is a label. -/
def startsLocalDeclaration (token : Token) : Rule Bool := do
  let scopes ← scopes
  match token.kind with
  | .identifier =>
    let next ← peek 1
    pure (scopes.isType token.text && next.map (·.kind) != some (.punct .colon))
  | _ => pure (scopes.startsDeclaration token)

def atLocalDeclaration : Rule Bool := do
  match ← current with
  | some token => startsLocalDeclaration token
  | none => pure false

def blockItem (sub : Grammar) : Rule Node := do
  if ← atLocalDeclaration then localDeclaration sub else sub.statement

/-- Items up to a closing brace or one of the stop tokens. An item that fails becomes an
error node and the next one is read. -/
def blockItems (sub : Grammar) (stops : List TokenKind) : Rule (List Child) :=
  many do
    match ← currentKind with
    | none => pure none
    | some kind =>
      if kind = .punct .rightBrace ∨ stops.contains kind then pure none
      else
        let item ← recovering .statement (blockItem sub)
        pure (some item.toChild)

/-- `{ ... }`, a scope of its own. -/
def compoundStatement (sub : Grammar) : Rule Node := do
  let opener ← expect (.punct .leftBrace)
  let items ← inScope (blockItems sub [])
  let closer ← expect (.punct .rightBrace)
  pure (.make .compoundStatement (opener.toChild :: items ++ [closer.toChild]))

def ifStatement (sub : Grammar) : Rule Node := do
  let word ← expect (.keyword .ifKw)
  let condition ← parenthesizedExpression sub
  let consequence ← sub.statement
  let front := [word.toChild, condition.as .condition, consequence.as .consequence]
  match ← accept (.keyword .elseKw) with
  | some otherwise =>
    let body ← sub.statement
    let clause := Node.make .elseClause [otherwise, body]
    pure (.make .ifStatement (front ++ [clause.as .alternative]))
  | none => pure (.make .ifStatement front)

def whileStatement (sub : Grammar) : Rule Node := do
  let word ← expect (.keyword .whileKw)
  let condition ← parenthesizedExpression sub
  let body ← sub.statement
  pure (.make .whileStatement [word, condition.as .condition, body.as .body])

def doStatement (sub : Grammar) : Rule Node := do
  let word ← expect (.keyword .doKw)
  let body ← sub.statement
  let until_ ← expect (.keyword .whileKw)
  let condition ← parenthesizedExpression sub
  let semicolon ← expect (.punct .semicolon)
  pure (.make .doStatement
    [word, body.as .body, until_, condition.as .condition, semicolon])

/-- The first part of a `for` and its semicolon, which a declaration brings along. -/
def forInitializer (sub : Grammar) : Rule (List Child) := do
  match ← accept (.punct .semicolon) with
  | some semicolon => pure [semicolon]
  | none =>
    if ← atLocalDeclaration then
      let declaration ← localDeclaration sub
      pure [declaration.as .initializer]
    else
      let value ← sub.expression .comma
      let semicolon ← expect (.punct .semicolon)
      pure [value.as .initializer, semicolon]

/-- An expression that may be missing in front of a token, and that token. -/
def optionalExpression (sub : Grammar) (field : Field) (closer : TokenKind) :
    Rule (List Child) := do
  let value ← unlessAt closer (only (·.as field) (sub.expression .comma))
  let token ← expect closer
  pure (value ++ [token.toChild])

/-- `for (initializer; condition; update) body`. What the initializer declares is in scope
through the body. -/
def forStatement (sub : Grammar) : Rule Node := do
  let word ← expect (.keyword .forKw)
  let opener ← expect (.punct .leftParen)
  let rest ← inScope do
    let initializer ← forInitializer sub
    let condition ← optionalExpression sub .condition (.punct .semicolon)
    let update ← optionalExpression sub .update (.punct .rightParen)
    let body ← sub.statement
    pure (initializer ++ condition ++ update ++ [body.as .body])
  pure (.make .forStatement (word.toChild :: opener.toChild :: rest))

def switchStatement (sub : Grammar) : Rule Node := do
  let word ← expect (.keyword .switchKw)
  let condition ← parenthesizedExpression sub
  let body ← compoundStatement sub
  pure (.make .switchStatement [word, condition.as .condition, body.as .body])

def caseLabel (sub : Grammar) : Rule (List Child) := do
  match ← accept (.keyword .caseKw) with
  | some word =>
    let value ← sub.expression .conditional
    pure [word.toChild, value.as .value]
  | none =>
    let word ← expect (.keyword .defaultKw)
    pure [word.toChild]

/-- A `case` or `default` label and the items up to the next label. -/
def caseStatement (sub : Grammar) : Rule Node := do
  let label ← caseLabel sub
  let colon ← expect (.punct .colon)
  let items ← blockItems sub [.keyword .caseKw, .keyword .defaultKw]
  pure (.make .caseStatement (label ++ [colon.toChild] ++ items))

def returnStatement (sub : Grammar) : Rule Node := do
  let word ← expect (.keyword .returnKw)
  let value ← unlessAt (.punct .semicolon) (only Node.toChild (sub.expression .comma))
  let semicolon ← expect (.punct .semicolon)
  pure (.make .returnStatement (word.toChild :: value ++ [semicolon.toChild]))

/-- `break;` and `continue;` -/
def jumpStatement (keyword : Keyword) (kind : NodeKind) : Rule Node := do
  let word ← expect (.keyword keyword)
  let semicolon ← expect (.punct .semicolon)
  pure (.make kind [word, semicolon])

def gotoStatement : Rule Node := do
  let word ← expect (.keyword .gotoKw)
  let label ← expect .identifier
  let semicolon ← expect (.punct .semicolon)
  pure (.make .gotoStatement [word, (Node.ofToken .identifier label).as .label, semicolon])

/-- `label: statement` -/
def labeledStatement (sub : Grammar) : Rule Node := do
  let label ← expect .identifier
  let colon ← expect (.punct .colon)
  let body ← sub.statement
  pure (.make .labeledStatement
    [(Node.ofToken .identifier label).as .label, colon, body])

/-- An expression and a semicolon, or a semicolon alone. -/
def expressionStatement (sub : Grammar) : Rule Node := do
  let value ← unlessAt (.punct .semicolon) (only Node.toChild (expression sub .comma))
  let semicolon ← expect (.punct .semicolon)
  pure (.make .expressionStatement (value ++ [semicolon.toChild]))

def statement (sub : Grammar) : Rule Node := do
  match ← current with
  | none => failExpecting .statement
  | some token =>
    nested do
      match token.kind with
      | .punct .leftBrace => nested (compoundStatement sub)
      | .keyword .ifKw => ifStatement sub
      | .keyword .whileKw => whileStatement sub
      | .keyword .doKw => doStatement sub
      | .keyword .forKw => forStatement sub
      | .keyword .switchKw => switchStatement sub
      | .keyword .caseKw | .keyword .defaultKw => caseStatement sub
      | .keyword .returnKw => returnStatement sub
      | .keyword .breakKw => jumpStatement .breakKw .breakStatement
      | .keyword .continueKw => jumpStatement .continueKw .continueStatement
      | .keyword .gotoKw => gotoStatement
      | .pragma => pragmaLine
      | .directive => directiveLine
      | .identifier =>
        if (← peek 1).map (·.kind) = some (.punct .colon) then labeledStatement sub
        else expressionStatement sub
      | _ => expressionStatement sub

end OpenCLTree

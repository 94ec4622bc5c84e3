import OpenCLTree.Grammar.Grammar

namespace OpenCLTree

open Rule

/-- Where an item failed: among the top-level items or among the items of a block. -/
inductive RecoveryLevel
  | topLevel | statement
  deriving DecidableEq

/-- How many braces a token opens, or closes when negative. -/
def braceChange (token : Token) : Int :=
  match token.kind with
  | .punct .leftBrace => 1
  | .punct .rightBrace => -1
  | _ => 0

/-- How many of the braces that some tokens open stay open behind them. -/
def braceDepth : List Token → Int
  | [] => 0
  | token :: rest => braceChange token + braceDepth rest

def isStatementKeyword : TokenKind → Bool
  | .keyword .ifKw | .keyword .whileKw | .keyword .doKw | .keyword .forKw
  | .keyword .switchKw | .keyword .caseKw | .keyword .defaultKw | .keyword .returnKw
  | .keyword .breakKw | .keyword .continueKw | .keyword .gotoKw => true
  | _ => false

/-- Whether skipping stops in front of a token: at a preprocessor line, at a brace that closes
an outer block, or at a line that starts a new item outside the braces skipped so far. -/
def isSyncPoint (scopes : Scopes) (level : RecoveryLevel) (depth : Int) (token : Token) : Bool :=
  match token.kind with
  | .pragma | .directive => true
  | .punct .rightBrace => decide (depth ≤ 0)
  | kind =>
    decide (depth ≤ 0) && token.newlineBefore &&
      ((level == .statement && isStatementKeyword kind) || scopes.startsDeclaration token)

/-- Skips tokens until parsing can go on, or past the semicolon that ends the item. At least
one token is skipped if there are none yet. -/
def skipToSync (level : RecoveryLevel) (skipped : List Token) : Rule (List Token) :=
  loop (fun (soFar : List Token) => do
    match ← current with
    | none => pure (.inr soFar)
    | some token =>
      let depth := braceDepth soFar
      if !soFar.isEmpty && isSyncPoint (← scopes) level depth token then pure (.inr soFar)
      else
        advance
        let longer := soFar ++ [token]
        if token.kind = .punct .semicolon ∧ depth ≤ 0 then pure (.inr longer)
        else pure (.inl longer)) skipped

/-- Turns a failed item into an error node: all tokens it took, and those up to the point
where parsing can go on. -/
def recover (start : Snapshot) (error : ParseError) (level : RecoveryLevel) : Rule Node := do
  report error
  setMode .normal
  let taken := (← get).cursor.takenSince start.cursor
  let tokens ← skipToSync level taken
  pure (.make .error (tokens.map Token.toChild))

/-- Reads an item and recovers if it fails. -/
def recovering (level : RecoveryLevel) (item : Rule Node) : Rule Node := do
  let start ← snapshot
  match ← attempt item with
  | .ok node => pure node
  | .error error => recover start error level

end OpenCLTree

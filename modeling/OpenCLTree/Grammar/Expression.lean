import OpenCLTree.Grammar.Specifiers
import OpenCLTree.Lexical.Builtin
import OpenCLTree.Syntax.Vector

namespace OpenCLTree

open Rule

/-- `( expression )` -/
def parenthesizedExpression (sub : Grammar) : Rule Node := do
  let opener ← expect (.punct .leftParen)
  let inner ← nested (sub.expression .comma)
  let closer ← expect (.punct .rightParen)
  pure (.make .parenthesizedExpression [opener, inner, closer])

/-- A string literal; adjacent ones are one expression. -/
def stringLiteral : Rule Node := do
  let strings ← many do
    match ← accept .string with
    | some token => pure (some (Node.ofToken .stringLiteral token))
    | none => pure none
  match strings with
  | [] => failExpecting .stringLiteral
  | [single] => pure single
  | _ => pure (.make .concatenatedString (strings.map Node.toChild))

def primaryExpression (sub : Grammar) : Rule Node := do
  match ← current with
  | none => failExpecting .expression
  | some token =>
    match token.kind with
    | .identifier =>
      advance
      pure (.ofToken .identifier token)
    | .number =>
      advance
      pure (.ofToken .numberLiteral token)
    | .character =>
      advance
      pure (.ofToken .charLiteral token)
    | .string => stringLiteral
    | .punct .leftParen => parenthesizedExpression sub
    | _ => failExpecting .expression

/-- `(a, b, c)` -/
def argumentList (sub : Grammar) : Rule Node := do
  let opener ← expect (.punct .leftParen)
  let arguments ← commaSeparated (.punct .rightParen) (sub.expression .assignment)
  let closer ← expect (.punct .rightParen)
  pure (.make .argumentList (opener.toChild :: arguments ++ [closer.toChild]))

/-- The name of a built-in function that is called, unless a variable or function of the
program hides it. -/
def builtinCallee? (scopes : Scopes) (callee : Node) : Option Token :=
  if callee.kind = .identifier then
    callee.childTokens.head?.filter fun name =>
      (builtinCategory? name.text).isSome && !scopes.isOrdinary name.text
  else none

def callSuffix (sub : Grammar) (callee : Node) : Rule Node := do
  let arguments ← argumentList sub
  match builtinCallee? (← scopes) callee with
  | some name =>
    pure (.make .builtinFunctionCall
      [(Node.ofToken .builtinFunction name).as .function, arguments.as .arguments])
  | none => pure (.make .callExpression [callee.as .function, arguments.as .arguments])

/-- `a[i]` -/
def subscriptSuffix (sub : Grammar) (array : Node) : Rule Node := do
  let opener ← expect (.punct .leftBracket)
  let index ← sub.expression .comma
  let closer ← expect (.punct .rightBracket)
  pure (.make .subscriptExpression [array.as .argument, opener, index.as .index, closer])

/-- `s.member` and `p->member` -/
def memberSuffix (record : Node) : Rule Node := do
  match ← current with
  | none => failExpecting .memberOperator
  | some token =>
    if token.kind = .punct .dot ∨ token.kind = .punct .arrow then
      advance
      let name ← expect .identifier
      pure (.make .fieldExpression [record.as .argument, token.as .operator,
        (Node.ofToken .fieldIdentifier name).as .member])
    else failExpecting .memberOperator

/-- The suffix operator that a token is. -/
def suffixOperator? (kind : TokenKind) : Option TokenKind :=
  (Operator.find? .postfixOp kind).map (·.token)

/-- The next suffix of an expression, if there is one. Only here are the dots read together
with component names; a name that selects no components is read again as a member. -/
def suffix? (sub : Grammar) (inner : Node) : Rule (Option Node) := do
  match ← inMode .suffix current with
  | none => pure none
  | some token =>
    match suffixOperator? token.kind with
    | some (.punct .leftParen) => pure (some (← callSuffix sub inner))
    | some (.punct .leftBracket) => pure (some (← subscriptSuffix sub inner))
    | some .swizzle =>
      if inner.mayBeVector then
        inMode .suffix advance
        pure (some (.make .swizzleAccess [inner.as .argument, token.as .accessor]))
      else pure (some (← memberSuffix inner))
    | some (.punct .dot) | some (.punct .arrow) => pure (some (← memberSuffix inner))
    | some (.punct .increment) | some (.punct .decrement) =>
      advance
      pure (some (.make .updateExpression [inner.as .argument, token.as .operator]))
    | _ => pure none

def suffixes (sub : Grammar) (inner : Node) : Rule Node :=
  loop (fun (inner : Node) => do
    match ← suffix? sub inner with
    | some outer => pure (.inl outer)
    | none => pure (.inr inner)) inner

def postfixExpression (sub : Grammar) : Rule Node := do
  let primary ← primaryExpression sub
  suffixes sub primary

/-- The parts of `( type )`. -/
structure ParenthesizedType where
  opener : Token
  type : Node
  closer : Token

def ParenthesizedType.children (parts : ParenthesizedType) : List Child :=
  [parts.opener, parts.type.as .type, parts.closer]

/-- `( type )`. The parenthesis is ambiguous if it goes on after the type. -/
def parenthesizedType (sub : Grammar) : Rule ParenthesizedType := do
  let opener ← expect (.punct .leftParen)
  let type ← typeDescriptor sub
  match ← accept (.punct .rightParen) with
  | some closer => pure ⟨opener, type, closer⟩
  | none => fail (.ambiguousCast (opener.span.cover type.span))

/-- Tries to read `( type )` and goes back if there is none. -/
def tryParenthesizedType (sub : Grammar) : Rule (Option ParenthesizedType) := do
  let start ← snapshot
  match ← attempt (parenthesizedType sub) with
  | .ok parts => pure (some parts)
  | .error _ =>
    restore start
    pure none

/-- `( type )` if a type name can start after the parenthesis. -/
def typeInParens (sub : Grammar) : Rule (Option ParenthesizedType) := do
  if ← startsTypeNameAt 1 then tryParenthesizedType sub else pure none

/-- `( type )` in front of an operand. -/
def leadingType (sub : Grammar) : Rule (Option ParenthesizedType) := do
  if ← check (.punct .leftParen) then typeInParens sub else pure none

/-- `.name` and `[index]` in front of an initializer. -/
def designators (sub : Grammar) : Rule (List Child) :=
  many do
    match ← currentKind with
    | some (.punct .dot) =>
      let dot ← expect (.punct .dot)
      let name ← expect .identifier
      pure (some ((Node.make .fieldDesignator
        [dot, Node.ofToken .fieldIdentifier name]).as .designator))
    | some (.punct .leftBracket) =>
      let opener ← expect (.punct .leftBracket)
      let index ← sub.expression .conditional
      let closer ← expect (.punct .rightBracket)
      pure (some ((Node.make .subscriptDesignator [opener, index, closer]).as .designator))
    | _ => pure none

/-- `.a[2] = value` -/
def initializerPair (sub : Grammar) : Rule Node := do
  let designators ← designators sub
  let assign ← expect (.punct .assign)
  let value ← sub.initializer
  pure (.make .initializerPair (designators ++ [assign.toChild, value.as .value]))

/-- `{ 1, .x = 2, [3] = 4, }` -/
def initializerList (sub : Grammar) : Rule Node := do
  let opener ← expect (.punct .leftBrace)
  let entries ← commaSeparated (.punct .rightBrace) do
    match ← currentKind with
    | some (.punct .dot) | some (.punct .leftBracket) => initializerPair sub
    | _ => sub.initializer
  let closer ← expect (.punct .rightBrace)
  pure (.make .initializerList (opener.toChild :: entries ++ [closer.toChild]))

/-- What follows a parenthesized type: a braced list makes a compound literal, a
parenthesis after a plain vector type a vector literal, and anything else a cast. -/
def afterParenthesizedType (sub : Grammar) (parts : ParenthesizedType) : Rule Node := do
  match ← currentKind with
  | some (.punct .leftBrace) =>
    let list ← initializerList sub
    suffixes sub (.make .compoundLiteralExpression (parts.children ++ [list.as .value]))
  | some (.punct .leftParen) =>
    if parts.type.isPlainVectorType then
      let arguments ← argumentList sub
      suffixes sub (.make .vectorLiteral (parts.children ++ [arguments.as .arguments]))
    else cast
  | _ => cast
where
  cast : Rule Node := do
    let value ← sub.castExpression
    pure (.make .castExpression (parts.children ++ [value.as .value]))

/-- A prefix operator and its operand. -/
def prefixed (kind : NodeKind) (operator : Token) (operand : Node) : Node :=
  .make kind [operator.as .operator, operand.as .argument]

/-- `sizeof (type)` or `sizeof expression` -/
def sizeofExpression (sub : Grammar) : Rule Node := do
  let word ← expect (.keyword .sizeof)
  match ← leadingType sub with
  | some parts => pure (.make .sizeofExpression (word.toChild :: parts.children))
  | none =>
    let value ← nested sub.unaryExpression
    pure (.make .sizeofExpression [word, value.as .value])

/-- `_Alignof (type)` -/
def alignofExpression (sub : Grammar) : Rule Node := do
  let word ← expect (.keyword .alignof)
  let opener ← expect (.punct .leftParen)
  let type ← typeDescriptor sub
  let closer ← expect (.punct .rightParen)
  pure (.make .alignofExpression [word, opener, type.as .type, closer])

/-- `vec_step (type)` or `vec_step (expression)` -/
def vecStepExpression (sub : Grammar) : Rule Node := do
  let word ← expect (.keyword .vecStep)
  match ← typeInParens sub with
  | some parts => pure (.make .vecStepExpression (word.toChild :: parts.children))
  | none =>
    let opener ← expect (.punct .leftParen)
    let value ← sub.expression .comma
    let closer ← expect (.punct .rightParen)
    pure (.make .vecStepExpression [word, opener, value.as .value, closer])

/-- The prefix operator of the unary level that a token is. -/
def unaryOperator? (kind : TokenKind) : Option TokenKind :=
  ((Operator.find? .prefixOp kind).filter (·.level == .unary)).map (·.token)

def unaryExpression (sub : Grammar) : Rule Node := do
  match ← current with
  | none => failExpecting .expression
  | some token =>
    match unaryOperator? token.kind with
    | none => postfixExpression sub
    | some (.keyword .sizeof) => sizeofExpression sub
    | some (.keyword .alignof) => alignofExpression sub
    | some (.keyword .vecStep) => vecStepExpression sub
    | some (.punct .increment) | some (.punct .decrement) =>
      advance
      let operand ← nested sub.unaryExpression
      pure (prefixed .updateExpression token operand)
    | some (.punct .star) | some (.punct .ampersand) =>
      advance
      let operand ← sub.castExpression
      pure (prefixed .pointerExpression token operand)
    | some _ =>
      advance
      let operand ← sub.castExpression
      pure (prefixed .unaryExpression token operand)

/-- A cast, or a unary expression where no type stands in the parenthesis. -/
def castExpression (sub : Grammar) : Rule Node :=
  nested do
    match ← leadingType sub with
    | some parts => afterParenthesizedType sub parts
    | none => unaryExpression sub

/-- The node of an infix operator and its operands. -/
def infixed (level : Level) (left : Node) (operator : Token) (right : Node) : Node :=
  match level with
  | .comma => .make .commaExpression [left.as .left, operator, right.as .right]
  | .assignment =>
    .make .assignmentExpression [left.as .left, operator.as .operator, right.as .right]
  | _ => .make .binaryExpression [left.as .left, operator.as .operator, right.as .right]

/-- `condition ? consequence : alternative`, from after the question mark. -/
def conditionalRest (sub : Grammar) (condition : Node) (question : Token) : Rule Node := do
  let consequence ← sub.expression .comma
  let colon ← expect (.punct .colon)
  let alternative ← sub.expression .conditional
  pure (.make .conditionalExpression [condition.as .condition, question,
    consequence.as .consequence, colon, alternative.as .alternative])

/-- The level from which the right operand may take operators. -/
def Operator.rightLevel (operator : Operator) : Level :=
  match operator.associativity with
  | .left => operator.level.next
  | .right => operator.level

/-- Takes the next infix operator that is not looser than `least`, with its right operand. -/
def extend? (sub : Grammar) (least : Level) (left : Node) : Rule (Option Node) := do
  match ← current with
  | none => pure none
  | some token =>
    match Operator.find? .infixOp token.kind with
    | none => pure none
    | some operator =>
      if operator.level < least then pure none
      else
        advance
        if operator.level = .conditional then
          pure (some (← conditionalRest sub left token))
        else
          let right ← sub.expression operator.rightLevel
          pure (some (infixed operator.level left token right))

/-- An expression with the infix operators that are not looser than `least`. -/
def expression (sub : Grammar) (least : Level) : Rule Node := do
  let first ← castExpression sub
  loop (fun (left : Node) => do
    match ← extend? sub least left with
    | some larger => pure (.inl larger)
    | none => pure (.inr left)) first

/-- An initializer: an expression without commas, or a braced list. -/
def initializer (sub : Grammar) : Rule Node := do
  if ← check (.punct .leftBrace) then nested (initializerList sub)
  else expression sub .assignment

end OpenCLTree

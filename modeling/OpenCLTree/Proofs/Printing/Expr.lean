import OpenCLTree.Grammar.Expression
import OpenCLTree.Proofs.Lexical.Spelling
import OpenCLTree.Proofs.Tree.Leaves

namespace OpenCLTree

deriving instance DecidableEq for Operator

/-- Expressions, with the parentheses that are written around some of them. -/
inductive Expr
  | name (text : String)
  | number (text : String)
  | parenthesized (inner : Expr)
  | infixed (operator : Operator) (left right : Expr)
  | conditional (condition consequence alternative : Expr)
  | prefixed (mark : Punctuator) (operand : Expr)
  | cast (operand : Expr)
  | subscript (array index : Expr)
  | call (callee : Expr) (arguments : List Expr)
  | member (record : Expr) (mark : Punctuator) (field : String)
  | updated (operand : Expr) (mark : Punctuator)

/-- A node without a place. -/
def Node.bare (kind : NodeKind) (children : List Child) : Node :=
  .mk kind ⟨0, 0⟩ children

def Operator.leaf (operator : Operator) : Token :=
  .leaf operator.token operator.lexeme

/-- The kind of the node of a prefix operator. -/
def Punctuator.prefixKind : Punctuator → NodeKind
  | .increment | .decrement => .updateExpression
  | .star | .ampersand => .pointerExpression
  | _ => .unaryExpression

/-- The type `int`, as it stands in a cast. -/
def intType : Node :=
  .bare .typeDescriptor [(Node.bare .primitiveType [Token.leaf (.keyword .int) "int"]).as .type]

namespace Expr

/-- How tightly an expression holds together. -/
def level : Expr → Level
  | .infixed operator _ _ => operator.level
  | .conditional _ _ _ => .conditional
  | .cast _ => .cast
  | .prefixed _ _ => .unary
  | _ => .suffix

mutual

@[simp]
def height : Expr → Nat
  | .name _ | .number _ => 0
  | .parenthesized inner => inner.height + 1
  | .infixed _ left right => max left.height right.height + 1
  | .conditional condition consequence alternative =>
    max condition.height (max consequence.height alternative.height) + 1
  | .prefixed _ operand | .cast operand | .updated operand _ => operand.height + 1
  | .subscript array index => max array.height index.height + 1
  | .call callee arguments => max callee.height (heightOfAll arguments) + 1
  | .member record _ _ => record.height + 1

@[simp]
def heightOfAll : List Expr → Nat
  | [] => 0
  | first :: rest => max first.height (heightOfAll rest)

end

mutual

/-- The syntax tree of an expression, without places. -/
@[simp]
def tree : Expr → Node
  | .name text => .bare .identifier [Token.leaf .identifier text]
  | .number text => .bare .numberLiteral [Token.leaf .number text]
  | .parenthesized inner =>
    .bare .parenthesizedExpression [Punctuator.leftParen.leaf, inner.tree, Punctuator.rightParen.leaf]
  | .infixed operator left right =>
    match operator.level with
    | .comma =>
      .bare .commaExpression [left.tree.as .left, operator.leaf, right.tree.as .right]
    | .assignment =>
      .bare .assignmentExpression
        [left.tree.as .left, operator.leaf.as .operator, right.tree.as .right]
    | _ =>
      .bare .binaryExpression [left.tree.as .left, operator.leaf.as .operator, right.tree.as .right]
  | .conditional condition consequence alternative =>
    .bare .conditionalExpression [condition.tree.as .condition, Punctuator.question.leaf,
      consequence.tree.as .consequence, Punctuator.colon.leaf, alternative.tree.as .alternative]
  | .prefixed mark operand =>
    .bare mark.prefixKind [mark.leaf.as .operator, operand.tree.as .argument]
  | .cast operand =>
    .bare .castExpression [Punctuator.leftParen.leaf, intType.as .type, Punctuator.rightParen.leaf,
      operand.tree.as .value]
  | .subscript array index =>
    .bare .subscriptExpression [array.tree.as .argument, Punctuator.leftBracket.leaf,
      index.tree.as .index, Punctuator.rightBracket.leaf]
  | .call callee arguments =>
    let list := Node.bare .argumentList
      (Punctuator.leftParen.leaf.toChild :: separated arguments ++ [Punctuator.rightParen.leaf.toChild])
    .bare .callExpression [callee.tree.as .function, list.as .arguments]
  | .member record mark field =>
    .bare .fieldExpression [record.tree.as .argument, mark.leaf.as .operator,
      (Node.bare .fieldIdentifier [Token.leaf .identifier field]).as .member]
  | .updated operand mark =>
    .bare .updateExpression [operand.tree.as .argument, mark.leaf.as .operator]

/-- The trees of some expressions, with commas between them. -/
@[simp]
def separated : List Expr → List Child
  | [] => []
  | [last] => [last.tree]
  | first :: rest => first.tree.toChild :: Punctuator.comma.leaf.toChild :: separated rest

end

/-- The tokens that an expression is written with. -/
def leaves (e : Expr) : List Token :=
  e.tree.leaves

end Expr

/-- Whether operands of two levels may stand beside an infix operator. -/
def Operator.Binds (operator : Operator) (left right : Level) : Prop :=
  match operator.associativity with
  | .left => operator.level ≤ left ∧ operator.level < right
  | .right => operator.level < left ∧ operator.level ≤ right

namespace Punctuator

/-- The prefix operators whose operand may be a cast. -/
def signs : List Punctuator :=
  [.plus, .minus, .bang, .tilde, .star, .ampersand]

/-- The operators that count up and down, in front of their operand or after it. -/
def steps : List Punctuator :=
  [.increment, .decrement]

theorem signs_noHash : ∀ mark ∈ signs, mark ≠ .hash ∧ mark ≠ .hashHash := by
  decide

theorem steps_noHash : ∀ mark ∈ steps, mark ≠ .hash ∧ mark ≠ .hashHash := by
  decide

end Punctuator

/-- Whether an expression has all the parentheses that its operators ask for, and its names and
numbers are written as such. -/
inductive Expr.Valid : Expr → Prop
  | name {text : String} : IsName text → builtinCategory? text = none → Valid (.name text)
  | number {text : String} : IsDecimal text → Valid (.number text)
  | parenthesized {inner : Expr} : Valid inner → Valid (.parenthesized inner)
  | infixed {operator : Operator} {left right : Expr} :
      operator ∈ Operator.table → operator.fixity = .infixOp → operator.level ≠ .conditional →
      operator.Binds left.level right.level → Valid left → Valid right →
      Valid (.infixed operator left right)
  | conditional {condition consequence alternative : Expr} :
      .conditional < condition.level → .conditional ≤ alternative.level →
      Valid condition → Valid consequence → Valid alternative →
      Valid (.conditional condition consequence alternative)
  | signed {mark : Punctuator} {operand : Expr} :
      mark ∈ Punctuator.signs → .cast ≤ operand.level → Valid operand →
      Valid (.prefixed mark operand)
  | stepped {mark : Punctuator} {operand : Expr} :
      mark ∈ Punctuator.steps → .unary ≤ operand.level → Valid operand →
      Valid (.prefixed mark operand)
  | cast {operand : Expr} : .cast ≤ operand.level → Valid operand → Valid (.cast operand)
  | subscript {array index : Expr} :
      array.level = .suffix → Valid array → Valid index → Valid (.subscript array index)
  | call {callee : Expr} {arguments : List Expr} :
      callee.level = .suffix → (∀ argument ∈ arguments, .assignment ≤ argument.level) →
      Valid callee → (∀ argument ∈ arguments, Valid argument) → Valid (.call callee arguments)
  | member {record : Expr} {mark : Punctuator} {field : String} :
      record.level = .suffix → mark = .dot ∨ mark = .arrow → IsName field → Valid record →
      Valid (.member record mark field)
  | updated {operand : Expr} {mark : Punctuator} :
      operand.level = .suffix → mark ∈ Punctuator.steps → Valid operand →
      Valid (.updated operand mark)

namespace Operator

variable {operator : Operator}

/-- The infix operators of the table, each of them found by its token. -/
theorem find?_of_mem : ∀ operator ∈ table, operator.fixity = .infixOp →
    find? .infixOp operator.token = some operator ∧ suffixOperator? operator.token = none ∧
      operator.level < .cast := by
  decide +kernel

theorem leaf_of_mem : ∀ operator ∈ table, operator.fixity = .infixOp →
    ∃ mark ∈ Punctuator.all, mark ≠ .hash ∧ mark ≠ .hashHash ∧ operator.token = .punct mark ∧
      operator.lexeme = mark.spelling := by
  decide +kernel

/-- Of the infix operators the assignments and the question mark group from the right. -/
theorem associativity_of_mem : ∀ operator ∈ table, operator.fixity = .infixOp →
    (operator.associativity = .right ↔
      operator.level = .assignment ∨ operator.level = .conditional) := by
  decide +kernel

end Operator

namespace Expr

@[simp]
theorem leaves_name (text : String) : (name text).leaves = [.leaf .identifier text] := by
  simp [leaves, Node.bare, Node.leaves, Token.toChild]

@[simp]
theorem leaves_number (text : String) : (number text).leaves = [.leaf .number text] := by
  simp [leaves, Node.bare, Node.leaves, Token.toChild]

@[simp]
theorem leaves_parenthesized (inner : Expr) : (parenthesized inner).leaves =
    Punctuator.leftParen.leaf :: (inner.leaves ++ [Punctuator.rightParen.leaf]) := by
  simp [leaves, Node.bare, Node.leaves, Token.toChild, Node.toChild]

@[simp]
theorem leaves_infixed (operator : Operator) (left right : Expr) :
    (infixed operator left right).leaves = left.leaves ++ operator.leaf :: right.leaves := by
  rw [leaves, tree]
  split <;> simp [leaves, Node.bare, Node.leaves, Token.toChild, Token.as, Node.as]

@[simp]
theorem leaves_conditional (condition consequence alternative : Expr) :
    (conditional condition consequence alternative).leaves =
      condition.leaves ++ Punctuator.question.leaf ::
        (consequence.leaves ++ Punctuator.colon.leaf :: alternative.leaves) := by
  simp [leaves, Node.bare, Node.leaves, Token.toChild, Node.as]

@[simp]
theorem leaves_prefixed (mark : Punctuator) (operand : Expr) :
    (prefixed mark operand).leaves = mark.leaf :: operand.leaves := by
  simp [leaves, Node.bare, Node.leaves, Token.as, Node.as]

@[simp]
theorem leaves_cast (operand : Expr) : (cast operand).leaves =
    Punctuator.leftParen.leaf :: .leaf (.keyword .int) "int" :: Punctuator.rightParen.leaf ::
      operand.leaves := by
  simp [leaves, intType, Node.bare, Node.leaves, Token.toChild, Node.as]

@[simp]
theorem leaves_subscript (array index : Expr) : (subscript array index).leaves =
    array.leaves ++ Punctuator.leftBracket.leaf :: (index.leaves ++ [Punctuator.rightBracket.leaf]) := by
  simp [leaves, Node.bare, Node.leaves, Token.toChild, Node.as]

/-- The tokens of some expressions, with commas between them. -/
def leavesOfAll : List Expr → List Token
  | [] => []
  | [last] => last.leaves
  | first :: rest => first.leaves ++ Punctuator.comma.leaf :: leavesOfAll rest

theorem leaves_separated (arguments : List Expr) :
    Node.leavesOfChildren (separated arguments) = leavesOfAll arguments := by
  fun_induction leavesOfAll arguments with
  | case1 => simp
  | case2 last => simp [leaves, Node.toChild]
  | case3 first rest more ih =>
    simp [leaves, Node.toChild, Token.toChild, ih]

@[simp]
theorem leaves_call (callee : Expr) (arguments : List Expr) : (call callee arguments).leaves =
    callee.leaves ++ Punctuator.leftParen.leaf ::
      (leavesOfAll arguments ++ [Punctuator.rightParen.leaf]) := by
  simp [leaves, Node.bare, Node.leaves, Token.toChild, Node.as, leaves_separated]

@[simp]
theorem leaves_member (record : Expr) (mark : Punctuator) (field : String) :
    (member record mark field).leaves = record.leaves ++ [mark.leaf, .leaf .identifier field] := by
  simp [leaves, Node.bare, Node.leaves, Token.toChild, Token.as, Node.as]

@[simp]
theorem leaves_updated (operand : Expr) (mark : Punctuator) :
    (updated operand mark).leaves = operand.leaves ++ [mark.leaf] := by
  simp [leaves, Node.bare, Node.leaves, Token.as, Node.as]

theorem mem_leavesOfAll {arguments : List Expr} {token : Token} (member : token ∈ leavesOfAll arguments) :
    token = Punctuator.comma.leaf ∨ ∃ argument ∈ arguments, token ∈ argument.leaves := by
  fun_induction leavesOfAll arguments with
  | case1 => cases member
  | case2 last => exact .inr ⟨last, List.mem_singleton.mpr rfl, member⟩
  | case3 first rest more ih =>
    rcases List.mem_append.mp member with here | later
    · exact .inr ⟨first, List.mem_cons_self, here⟩
    · rcases List.mem_cons.mp later with comma | later
      · exact .inl comma
      · exact (ih later).imp_right fun ⟨argument, listed, inside⟩ =>
          ⟨argument, List.mem_cons_of_mem _ listed, inside⟩

/-- Every token of an expression reads as itself in front of a blank. -/
theorem Valid.isSpelled {e : Expr} (valid : e.Valid) : ∀ token ∈ e.leaves, token.IsSpelled := by
  have mark (mark : Punctuator) (noHash : mark ≠ .hash ∧ mark ≠ .hashHash) : mark.leaf.IsSpelled :=
    mark.leaf_isSpelled noHash.1 noHash.2
  induction valid with
  | name word => simpa using word.isSpelled
  | number digits => simpa using digits.isSpelled
  | parenthesized _ ih =>
    simp only [leaves_parenthesized, List.forall_mem_cons, List.forall_mem_append]
    exact ⟨mark _ (by decide), ih, mark _ (by decide), by simp⟩
  | infixed listed isInfix _ _ _ _ ihLeft ihRight =>
    obtain ⟨symbol, _, noHash, noHashHash, token, lexeme⟩ := Operator.leaf_of_mem _ listed isInfix
    simp only [leaves_infixed, List.forall_mem_cons, List.forall_mem_append]
    rw [Operator.leaf, token, lexeme]
    exact ⟨ihLeft, mark symbol ⟨noHash, noHashHash⟩, ihRight⟩
  | conditional _ _ _ _ _ ihCondition ihConsequence ihAlternative =>
    simp only [leaves_conditional, List.forall_mem_cons, List.forall_mem_append]
    exact ⟨ihCondition, mark _ (by decide), ihConsequence, mark _ (by decide), ihAlternative⟩
  | signed listed _ _ ih =>
    simp only [leaves_prefixed, List.forall_mem_cons]
    exact ⟨mark _ (Punctuator.signs_noHash _ listed), ih⟩
  | stepped listed _ _ ih =>
    simp only [leaves_prefixed, List.forall_mem_cons]
    exact ⟨mark _ (Punctuator.steps_noHash _ listed), ih⟩
  | cast _ _ ih =>
    simp only [leaves_cast, List.forall_mem_cons]
    exact ⟨mark _ (by decide), Keyword.int_isSpelled, mark _ (by decide), ih⟩
  | subscript _ _ _ ihArray ihIndex =>
    simp only [leaves_subscript, List.forall_mem_cons, List.forall_mem_append]
    exact ⟨ihArray, mark _ (by decide), ihIndex, mark _ (by decide), by simp⟩
  | call _ _ _ _ ihCallee ihArguments =>
    simp only [leaves_call, List.forall_mem_cons, List.forall_mem_append]
    refine ⟨ihCallee, mark _ (by decide), ?_, mark _ (by decide), by simp⟩
    intro token member
    obtain rfl | ⟨argument, listed, inside⟩ := mem_leavesOfAll member
    · exact mark _ (by decide)
    · exact ihArguments argument listed token inside
  | member _ isMember isName _ ih =>
    simp only [leaves_member, List.forall_mem_cons, List.forall_mem_append]
    refine ⟨ih, mark _ ?_, isName.isSpelled, by simp⟩
    obtain rfl | rfl := isMember <;> decide
  | updated _ listed _ ih =>
    simp only [leaves_updated, List.forall_mem_cons, List.forall_mem_append]
    exact ⟨ih, mark _ (Punctuator.steps_noHash _ listed), by simp⟩

theorem heightOfAll_le {arguments : List Expr}
    (short : ∀ argument ∈ arguments, argument.height < argument.leaves.length) :
    heightOfAll arguments ≤ (leavesOfAll arguments).length := by
  fun_induction leavesOfAll arguments with
  | case1 => simp
  | case2 last =>
    have := short last List.mem_cons_self
    simp only [heightOfAll]
    omega
  | case3 first rest more ih =>
    obtain ⟨here, later⟩ := List.forall_mem_cons.mp short
    have := ih later
    simp only [heightOfAll, List.length_append, List.length_cons]
    omega

/-- An expression has more tokens than levels. -/
theorem Valid.height_lt {e : Expr} (valid : e.Valid) : e.height < e.leaves.length := by
  induction valid with
  | call _ _ _ _ ihCallee ihArguments =>
    have := heightOfAll_le ihArguments
    simp only [height, leaves_call, List.length_append, List.length_cons]
    omega
  | name | number => simp
  | _ =>
    simp
    omega

end Expr

end OpenCLTree

import OpenCLTree.Lexical.TokenKind

namespace OpenCLTree

/-- The binding levels of operators, from the loosest to the tightest. -/
inductive Level
  | comma | assignment | conditional | logicalOr | logicalAnd | bitwiseOr | bitwiseXor
  | bitwiseAnd | equality | relational | shift | additive | multiplicative | cast | unary
  | suffix
  deriving DecidableEq

namespace Level

def name : Level → String
  | .comma => "Comma"
  | .assignment => "Assignment"
  | .conditional => "Conditional"
  | .logicalOr => "LogicalOr"
  | .logicalAnd => "LogicalAnd"
  | .bitwiseOr => "BitwiseOr"
  | .bitwiseXor => "BitwiseXor"
  | .bitwiseAnd => "BitwiseAnd"
  | .equality => "Equality"
  | .relational => "Relational"
  | .shift => "Shift"
  | .additive => "Additive"
  | .multiplicative => "Multiplicative"
  | .cast => "Cast"
  | .unary => "Unary"
  | .suffix => "Postfix"

def rank : Level → Nat
  | .comma => 0
  | .assignment => 1
  | .conditional => 2
  | .logicalOr => 3
  | .logicalAnd => 4
  | .bitwiseOr => 5
  | .bitwiseXor => 6
  | .bitwiseAnd => 7
  | .equality => 8
  | .relational => 9
  | .shift => 10
  | .additive => 11
  | .multiplicative => 12
  | .cast => 13
  | .unary => 14
  | .suffix => 15

instance : LE Level := ⟨fun a b => a.rank ≤ b.rank⟩

instance : LT Level := ⟨fun a b => a.rank < b.rank⟩

instance (a b : Level) : Decidable (a ≤ b) := inferInstanceAs (Decidable (a.rank ≤ b.rank))

instance (a b : Level) : Decidable (a < b) := inferInstanceAs (Decidable (a.rank < b.rank))

/-- The next tighter level; the tightest is its own. -/
def next : Level → Level
  | .comma => .assignment
  | .assignment => .conditional
  | .conditional => .logicalOr
  | .logicalOr => .logicalAnd
  | .logicalAnd => .bitwiseOr
  | .bitwiseOr => .bitwiseXor
  | .bitwiseXor => .bitwiseAnd
  | .bitwiseAnd => .equality
  | .equality => .relational
  | .relational => .shift
  | .shift => .additive
  | .additive => .multiplicative
  | .multiplicative => .cast
  | .cast => .unary
  | .unary => .suffix
  | .suffix => .suffix

end Level

inductive Associativity
  | left | right
  deriving DecidableEq

def Associativity.name : Associativity → String
  | .left => "Left"
  | .right => "Right"

inductive Fixity
  | prefixOp | infixOp | postfixOp
  deriving DecidableEq

def Fixity.name : Fixity → String
  | .prefixOp => "Prefix"
  | .infixOp => "Infix"
  | .postfixOp => "Postfix"

/-- An operator in one of its uses. -/
structure Operator where
  token : TokenKind
  lexeme : String
  level : Level
  associativity : Associativity
  fixity : Fixity

namespace Operator

def table : List Operator := [
  ⟨.punct .comma, ",", .comma, .left, .infixOp⟩,
  ⟨.punct .assign, "=", .assignment, .right, .infixOp⟩,
  ⟨.punct .plusAssign, "+=", .assignment, .right, .infixOp⟩,
  ⟨.punct .minusAssign, "-=", .assignment, .right, .infixOp⟩,
  ⟨.punct .starAssign, "*=", .assignment, .right, .infixOp⟩,
  ⟨.punct .slashAssign, "/=", .assignment, .right, .infixOp⟩,
  ⟨.punct .percentAssign, "%=", .assignment, .right, .infixOp⟩,
  ⟨.punct .ampersandAssign, "&=", .assignment, .right, .infixOp⟩,
  ⟨.punct .barAssign, "|=", .assignment, .right, .infixOp⟩,
  ⟨.punct .caretAssign, "^=", .assignment, .right, .infixOp⟩,
  ⟨.punct .shiftLeftAssign, "<<=", .assignment, .right, .infixOp⟩,
  ⟨.punct .shiftRightAssign, ">>=", .assignment, .right, .infixOp⟩,
  ⟨.punct .question, "?", .conditional, .right, .infixOp⟩,
  ⟨.punct .logicalOr, "||", .logicalOr, .left, .infixOp⟩,
  ⟨.punct .logicalAnd, "&&", .logicalAnd, .left, .infixOp⟩,
  ⟨.punct .bar, "|", .bitwiseOr, .left, .infixOp⟩,
  ⟨.punct .caret, "^", .bitwiseXor, .left, .infixOp⟩,
  ⟨.punct .ampersand, "&", .bitwiseAnd, .left, .infixOp⟩,
  ⟨.punct .equal, "==", .equality, .left, .infixOp⟩,
  ⟨.punct .notEqual, "!=", .equality, .left, .infixOp⟩,
  ⟨.punct .less, "<", .relational, .left, .infixOp⟩,
  ⟨.punct .greater, ">", .relational, .left, .infixOp⟩,
  ⟨.punct .lessEqual, "<=", .relational, .left, .infixOp⟩,
  ⟨.punct .greaterEqual, ">=", .relational, .left, .infixOp⟩,
  ⟨.punct .shiftLeft, "<<", .shift, .left, .infixOp⟩,
  ⟨.punct .shiftRight, ">>", .shift, .left, .infixOp⟩,
  ⟨.punct .plus, "+", .additive, .left, .infixOp⟩,
  ⟨.punct .minus, "-", .additive, .left, .infixOp⟩,
  ⟨.punct .star, "*", .multiplicative, .left, .infixOp⟩,
  ⟨.punct .slash, "/", .multiplicative, .left, .infixOp⟩,
  ⟨.punct .percent, "%", .multiplicative, .left, .infixOp⟩,
  ⟨.punct .leftParen, "(type)", .cast, .right, .prefixOp⟩,
  ⟨.punct .plus, "+", .unary, .right, .prefixOp⟩,
  ⟨.punct .minus, "-", .unary, .right, .prefixOp⟩,
  ⟨.punct .bang, "!", .unary, .right, .prefixOp⟩,
  ⟨.punct .tilde, "~", .unary, .right, .prefixOp⟩,
  ⟨.punct .star, "*", .unary, .right, .prefixOp⟩,
  ⟨.punct .ampersand, "&", .unary, .right, .prefixOp⟩,
  ⟨.punct .increment, "++", .unary, .right, .prefixOp⟩,
  ⟨.punct .decrement, "--", .unary, .right, .prefixOp⟩,
  ⟨.keyword .sizeof, "sizeof", .unary, .right, .prefixOp⟩,
  ⟨.keyword .alignof, "_Alignof", .unary, .right, .prefixOp⟩,
  ⟨.keyword .vecStep, "vec_step", .unary, .right, .prefixOp⟩,
  ⟨.punct .increment, "++", .suffix, .left, .postfixOp⟩,
  ⟨.punct .decrement, "--", .suffix, .left, .postfixOp⟩,
  ⟨.punct .leftParen, "()", .suffix, .left, .postfixOp⟩,
  ⟨.punct .leftBracket, "[]", .suffix, .left, .postfixOp⟩,
  ⟨.punct .dot, ".", .suffix, .left, .postfixOp⟩,
  ⟨.punct .arrow, "->", .suffix, .left, .postfixOp⟩,
  ⟨.swizzle, ".xyzw", .suffix, .left, .postfixOp⟩]

def find? (fixity : Fixity) (token : TokenKind) : Option Operator :=
  table.find? fun entry => entry.token == token && entry.fixity == fixity

end Operator

end OpenCLTree

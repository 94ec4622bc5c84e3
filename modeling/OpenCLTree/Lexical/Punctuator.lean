namespace OpenCLTree

/-- Operators and delimiters. -/
inductive Punctuator
  | hash | hashHash | plus | minus | star | slash | percent | increment | decrement | equal
  | notEqual | less | greater | lessEqual | greaterEqual | logicalAnd | logicalOr | bang
  | ampersand | bar | caret | tilde | shiftLeft | shiftRight | assign | plusAssign
  | minusAssign | starAssign | slashAssign | percentAssign | ampersandAssign | barAssign
  | caretAssign | shiftLeftAssign | shiftRightAssign | question | leftParen | rightParen
  | leftBracket | rightBracket | leftBrace | rightBrace | comma | semicolon | colon | dot
  | arrow | ellipsis
  deriving DecidableEq

namespace Punctuator

def name : Punctuator → String
  | .hash => "Hash"
  | .hashHash => "HashHash"
  | .plus => "Plus"
  | .minus => "Minus"
  | .star => "Star"
  | .slash => "Slash"
  | .percent => "Percent"
  | .increment => "PlusPlus"
  | .decrement => "MinusMinus"
  | .equal => "EqEq"
  | .notEqual => "NotEq"
  | .less => "Lt"
  | .greater => "Gt"
  | .lessEqual => "LtEq"
  | .greaterEqual => "GtEq"
  | .logicalAnd => "AndAnd"
  | .logicalOr => "OrOr"
  | .bang => "Bang"
  | .ampersand => "Ampersand"
  | .bar => "Or"
  | .caret => "Caret"
  | .tilde => "Tilde"
  | .shiftLeft => "LtLt"
  | .shiftRight => "GtGt"
  | .assign => "Assign"
  | .plusAssign => "PlusAssign"
  | .minusAssign => "MinusAssign"
  | .starAssign => "StarAssign"
  | .slashAssign => "SlashAssign"
  | .percentAssign => "PercentAssign"
  | .ampersandAssign => "AmpersandAssign"
  | .barAssign => "PipeAssign"
  | .caretAssign => "CaretAssign"
  | .shiftLeftAssign => "LtLtAssign"
  | .shiftRightAssign => "GtGtAssign"
  | .question => "Question"
  | .leftParen => "LeftParen"
  | .rightParen => "RightParen"
  | .leftBracket => "LeftBracket"
  | .rightBracket => "RightBracket"
  | .leftBrace => "LeftBrace"
  | .rightBrace => "RightBrace"
  | .comma => "Comma"
  | .semicolon => "Semicolon"
  | .colon => "Colon"
  | .dot => "Dot"
  | .arrow => "Arrow"
  | .ellipsis => "Ellipsis"

def spelling : Punctuator → String
  | .hash => "#"
  | .hashHash => "##"
  | .plus => "+"
  | .minus => "-"
  | .star => "*"
  | .slash => "/"
  | .percent => "%"
  | .increment => "++"
  | .decrement => "--"
  | .equal => "=="
  | .notEqual => "!="
  | .less => "<"
  | .greater => ">"
  | .lessEqual => "<="
  | .greaterEqual => ">="
  | .logicalAnd => "&&"
  | .logicalOr => "||"
  | .bang => "!"
  | .ampersand => "&"
  | .bar => "|"
  | .caret => "^"
  | .tilde => "~"
  | .shiftLeft => "<<"
  | .shiftRight => ">>"
  | .assign => "="
  | .plusAssign => "+="
  | .minusAssign => "-="
  | .starAssign => "*="
  | .slashAssign => "/="
  | .percentAssign => "%="
  | .ampersandAssign => "&="
  | .barAssign => "|="
  | .caretAssign => "^="
  | .shiftLeftAssign => "<<="
  | .shiftRightAssign => ">>="
  | .question => "?"
  | .leftParen => "("
  | .rightParen => ")"
  | .leftBracket => "["
  | .rightBracket => "]"
  | .leftBrace => "\x7b"
  | .rightBrace => "\x7d"
  | .comma => ","
  | .semicolon => ";"
  | .colon => ":"
  | .dot => "."
  | .arrow => "->"
  | .ellipsis => "..."

def all : List Punctuator := [
  .hash, .hashHash, .plus, .minus, .star, .slash, .percent, .increment, .decrement, .equal,
  .notEqual, .less, .greater, .lessEqual, .greaterEqual, .logicalAnd, .logicalOr, .bang,
  .ampersand, .bar, .caret, .tilde, .shiftLeft, .shiftRight, .assign, .plusAssign,
  .minusAssign, .starAssign, .slashAssign, .percentAssign, .ampersandAssign, .barAssign,
  .caretAssign, .shiftLeftAssign, .shiftRightAssign, .question, .leftParen, .rightParen,
  .leftBracket, .rightBracket, .leftBrace, .rightBrace, .comma, .semicolon, .colon, .dot,
  .arrow, .ellipsis]

end Punctuator

end OpenCLTree

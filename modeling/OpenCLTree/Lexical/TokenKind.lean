import OpenCLTree.Lexical.Keyword
import OpenCLTree.Lexical.Punctuator
import OpenCLTree.Lexical.Qualifier

namespace OpenCLTree

/-- The kinds of tokens. -/
inductive TokenKind
  | qualifier (qualifier : Qualifier)
  | keyword (keyword : Keyword)
  | identifier | number | string | character
  | pragma | directive
  | punct (punctuator : Punctuator)
  | swizzle
  deriving DecidableEq

inductive TokenClass
  | identifier | keyword | punctuation | number | string | directiveMarker | swizzle
  deriving DecidableEq

namespace TokenClass

def name : TokenClass → String
  | .identifier => "Identifier"
  | .keyword => "Keyword"
  | .punctuation => "Punctuation"
  | .number => "NumberLiteral"
  | .string => "StringLiteral"
  | .directiveMarker => "PragmaMarker"
  | .swizzle => "SwizzleAccessor"

end TokenClass

namespace TokenKind

def name : TokenKind → String
  | .qualifier q => q.name
  | .keyword k => k.name
  | .identifier => "Identifier"
  | .number => "NumberLiteral"
  | .string => "StringLiteral"
  | .character => "CharLiteral"
  | .pragma => "Pragma"
  | .directive => "Directive"
  | .punct p => p.name
  | .swizzle => "SwizzleAccessor"

/-- How messages refer to a token of this kind. -/
def description : TokenKind → String
  | .qualifier q => q.description
  | .keyword k => k.description
  | .identifier => "identifier"
  | .number => "number literal"
  | .string => "string literal"
  | .character => "character literal"
  | .pragma => "`#pragma`"
  | .directive => "preprocessor directive"
  | .punct p => "`" ++ p.spelling ++ "`"
  | .swizzle => "swizzle accessor"

def tokenClass : TokenKind → TokenClass
  | .qualifier _ | .keyword _ => .keyword
  | .identifier => .identifier
  | .number => .number
  | .string | .character => .string
  | .pragma | .directive => .directiveMarker
  | .punct _ => .punctuation
  | .swizzle => .swizzle

def isKeyword (kind : TokenKind) : Bool :=
  kind.tokenClass == .keyword

/-- Tokens whose reading depends on whether accessors are recognized. -/
def dependsOnMode (kind : TokenKind) : Bool :=
  kind == .punct .dot || kind == .swizzle

end TokenKind

end OpenCLTree

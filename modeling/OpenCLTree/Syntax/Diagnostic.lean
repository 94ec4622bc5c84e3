import OpenCLTree.LineIndex
import OpenCLTree.Lexical.LexError
import OpenCLTree.Lexical.Token
import OpenCLTree.Syntax.NodeKind

namespace OpenCLTree

/-- What the grammar misses at the place of an error. -/
inductive Expected
  | token (kind : TokenKind)
  | typeSpecifier | attributeName | declarator | functionDeclarator | structName | enumName
  | expression | stringLiteral | memberOperator | statement | shallowerNesting
  deriving DecidableEq

def Expected.text : Expected → String
  | .token kind => kind.description
  | .typeSpecifier => "type specifier"
  | .attributeName => "attribute name"
  | .declarator => "declarator"
  | .functionDeclarator => "function declarator"
  | .structName => "struct name or `\x7b`"
  | .enumName => "enum name or `\x7b`"
  | .expression => "expression"
  | .stringLiteral => "string literal"
  | .memberOperator => "`.` or `->`"
  | .statement => "statement"
  | .shallowerNesting => "shallower nesting"

/-- What a message calls a found token: names and literals are shown with their text. -/
def Token.description (token : Token) : String :=
  match token.kind.tokenClass with
  | .identifier | .number | .string => token.kind.description ++ " `" ++ token.text ++ "`"
  | _ => token.kind.description

/-- The errors of a source. A parenthesis that turns out not to hold a type is no error of the
source: it only sends the parser back to read an expression. -/
inductive ParseError
  | lexical (error : LexError)
  | unexpectedToken (expected : Expected) (found : String) (span : Span)
  | unexpectedEnd (expected : Expected) (span : Span)
  | duplicateQualifier (category : QualifierCategory) (first span : Span)
  | missingBody (name : String) (span : Span)
  | ambiguousCast (span : Span)

inductive DiagnosticKind
  | lexical | unexpectedToken | duplicateQualifier | missingBody | ambiguousCast
  deriving DecidableEq

def DiagnosticKind.name : DiagnosticKind → String
  | .lexical => "Lex"
  | .unexpectedToken => "UnexpectedToken"
  | .duplicateQualifier => "DuplicateQualifier"
  | .missingBody => "MissingBody"
  | .ambiguousCast => "AmbiguousCast"

namespace ParseError

def message : ParseError → String
  | .lexical error => error.message
  | .unexpectedToken expected found _ => "expected " ++ expected.text ++ ", found " ++ found
  | .unexpectedEnd expected _ => "expected " ++ expected.text ++ ", found end of input"
  | .duplicateQualifier category _ _ => "duplicate " ++ category.description ++ " qualifier"
  | .missingBody name _ => "kernel `" ++ name ++ "` is declared without a body"
  | .ambiguousCast _ => "ambiguous cast"

def span : ParseError → Span
  | .lexical error => error.span
  | .unexpectedToken _ _ span => span
  | .unexpectedEnd _ span => span
  | .duplicateQualifier _ _ span => span
  | .missingBody _ span => span
  | .ambiguousCast span => span

def kind : ParseError → DiagnosticKind
  | .lexical _ => .lexical
  | .unexpectedToken .. | .unexpectedEnd .. => .unexpectedToken
  | .duplicateQualifier .. => .duplicateQualifier
  | .missingBody .. => .missingBody
  | .ambiguousCast _ => .ambiguousCast

/-- Moves every span of an error of the grammar; lexical errors keep their offsets. -/
def mapSpan (place : Span → Span) : ParseError → ParseError
  | .lexical error => .lexical error
  | .unexpectedToken expected found span => .unexpectedToken expected found (place span)
  | .unexpectedEnd expected span => .unexpectedEnd expected (place span)
  | .duplicateQualifier category first span =>
    .duplicateQualifier category (place first) (place span)
  | .missingBody name span => .missingBody name (place span)
  | .ambiguousCast span => .ambiguousCast (place span)

end ParseError

/-- An error and the position where its span starts. -/
structure Diagnostic where
  error : ParseError
  position : Position

/-- A remark on a span. A diagnostic has one primary label and may have more. -/
structure Label where
  isPrimary : Bool
  span : Span
  message : String

namespace Diagnostic

def span (diagnostic : Diagnostic) : Span :=
  diagnostic.error.span

def message (diagnostic : Diagnostic) : String :=
  diagnostic.error.message

def kind (diagnostic : Diagnostic) : DiagnosticKind :=
  diagnostic.error.kind

def labels (diagnostic : Diagnostic) : List Label :=
  match diagnostic.error with
  | .lexical error => [⟨true, error.span, "malformed token"⟩]
  | .unexpectedToken expected _ span => [⟨true, span, "expected " ++ expected.text⟩]
  | .unexpectedEnd expected span => [⟨true, span, "expected " ++ expected.text⟩]
  | .duplicateQualifier _ first span =>
    [⟨true, span, "this qualifier is ignored"⟩,
      ⟨false, first, "first qualifier of this category"⟩]
  | .missingBody _ span => [⟨true, span, "kernel functions must have a body"⟩]
  | .ambiguousCast span => [⟨true, span, ""⟩]

/-- The position and the message, as one line. -/
def line (diagnostic : Diagnostic) : String :=
  toString diagnostic.position.line ++ ":" ++ toString diagnostic.position.column ++ ": " ++
    diagnostic.message

/-- The diagnostics for some errors, located in a source and ordered by the start of their
spans; errors with one start keep their order. Errors about ambiguous casts are dropped. -/
def ofErrors (source : List Char) (errors : List ParseError) : List Diagnostic :=
  let index := LineIndex.ofText source
  let located := (errors.filter (·.kind != .ambiguousCast)).map fun error =>
    ⟨error, index.position source error.span.start⟩
  located.mergeSort fun a b => a.span.start ≤ b.span.start

end Diagnostic

end OpenCLTree

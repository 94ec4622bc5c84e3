import OpenCLTree.Text

namespace OpenCLTree

/-- What can be wrong with a piece of source text. The offset of an invalid escape counts
from the start of its literal. -/
inductive LexErrorKind
  | unrecognizedCharacter
  | unterminatedString
  | unterminatedChar
  | unterminatedComment
  | invalidEscape (sequence : String) (offset : Nat)
  deriving DecidableEq

/-- A lexical error, the byte offset where it lies, and the text it was found in. -/
structure LexError where
  kind : LexErrorKind
  offset : Nat
  lexeme : String
  deriving DecidableEq

namespace LexErrorKind

def message : LexErrorKind → String
  | .unrecognizedCharacter => "unrecognized character"
  | .unterminatedString => "unterminated string literal"
  | .unterminatedChar => "unterminated character literal"
  | .unterminatedComment => "unterminated block comment"
  | .invalidEscape sequence _ => "invalid escape sequence '" ++ sequence ++ "'"

end LexErrorKind

namespace LexError

def message (error : LexError) : String :=
  error.kind.message ++ " at byte " ++ toString error.offset

/-- The spoiled escape sequence, or the first character of the lexeme. -/
def span (error : LexError) : Span :=
  let length := match error.kind with
    | .invalidEscape sequence _ => byteLength sequence.toList
    | _ => byteLength (error.lexeme.toList.take 1)
  ⟨error.offset, error.offset + length⟩

/-- Adds an error to errors that are ordered by their offsets, the last of them first. The
first error found at an offset stays the only one there. -/
def insertInto (error : LexError) : List LexError → List LexError
  | [] => [error]
  | other :: rest =>
    if other.offset < error.offset then error :: other :: rest
    else if error.offset = other.offset then other :: rest
    else other :: insertInto error rest

end LexError

end OpenCLTree

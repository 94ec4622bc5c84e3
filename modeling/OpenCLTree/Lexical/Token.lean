import OpenCLTree.Lexical.TokenKind
import OpenCLTree.Span

namespace OpenCLTree

/-- A token with its text. The flag tells whether a line ends between it and the token
before it. -/
structure Token where
  kind : TokenKind
  text : String
  span : Span
  newlineBefore : Bool
  deriving DecidableEq

end OpenCLTree

import OpenCLTree.LineIndex
import OpenCLTree.Syntax.Node

namespace OpenCLTree

/-- A source with its syntax tree. -/
structure Tree where
  source : String
  root : Node

namespace Tree

/-- The top-level items. -/
def items (tree : Tree) : List Node :=
  tree.root.childNodes

def hasError (tree : Tree) : Bool :=
  tree.root.hasError

/-- The source text of a span, if it can be cut out. -/
def text? (tree : Tree) (span : Span) : Option String :=
  (slice? tree.source.toList span).map String.ofList

def position (tree : Tree) (offset : Nat) : Position :=
  (LineIndex.ofText tree.source.toList).position tree.source.toList offset

end Tree

end OpenCLTree

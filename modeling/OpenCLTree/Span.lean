namespace OpenCLTree

/-- A half-open stretch of positions. The unit is the holder's: bytes of a source,
or tokens of a stream while a tree is being built. -/
structure Span where
  start : Nat
  stop : Nat
  deriving DecidableEq

namespace Span

/-- The smallest span that covers both. -/
def cover (first last : Span) : Span :=
  ⟨min first.start last.start, max first.stop last.stop⟩

def length (span : Span) : Nat :=
  span.stop - span.start

def isEmpty (span : Span) : Bool :=
  span.start == span.stop

end Span

end OpenCLTree

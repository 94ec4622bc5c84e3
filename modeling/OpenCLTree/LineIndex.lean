import OpenCLTree.Text

namespace OpenCLTree

/-- A place in a source, both numbers counted from one. -/
structure Position where
  line : Nat
  column : Nat
  deriving DecidableEq

/-- The byte offsets at which the lines of a text start, in order. -/
structure LineIndex where
  starts : List Nat

namespace LineIndex

/-- The offsets right after the line feeds of a text that itself begins at `offset`. -/
def startsAfter : Nat → List Char → List Nat
  | _, [] => []
  | offset, c :: rest =>
    if c = '\n' then (offset + c.utf8Size) :: startsAfter (offset + c.utf8Size) rest
    else startsAfter (offset + c.utf8Size) rest

def ofText (text : List Char) : LineIndex :=
  ⟨0 :: startsAfter 0 text⟩

def lineCount (index : LineIndex) : Nat :=
  index.starts.length

/-- Where the line of an offset starts: the last start that is not beyond it. -/
def lineStart? (index : LineIndex) (offset : Nat) : Option Nat :=
  (index.starts.takeWhile (· ≤ offset)).getLast?

/-- The position of an offset; one beyond the end stands for the end. The column counts
characters, or bytes when the offset falls inside a character. -/
def position (index : LineIndex) (text : List Char) (offset : Nat) : Position :=
  let target := min offset (byteLength text)
  let reached := index.starts.takeWhile (· ≤ target)
  let lineStart := (index.lineStart? target).getD 0
  let column := match slice? text ⟨lineStart, target⟩ with
    | some line => line.length
    | none => target - lineStart
  ⟨reached.length, column + 1⟩

end LineIndex

end OpenCLTree

import OpenCLTree.Text

namespace OpenCLTree

def simpleEscapes : List Char :=
  ['n', 't', 'r', 'v', 'b', 'f', 'a', '\\', '\'', '"', '?']

def isOctalDigit (c : Char) : Bool :=
  '0' ≤ c && c ≤ '7'

/-- Reads what follows a backslash: the number of characters that complete the escape, or
the characters that spoil it. -/
def escapeExtent : List Char → Except (List Char) Nat
  | [] => .error []
  | c :: rest =>
    if simpleEscapes.contains c then .ok 1
    else if isOctalDigit c then .ok (1 + ((rest.take 2).takeWhile isOctalDigit).length)
    else if c == 'x' then
      let digits := rest.takeWhile isHexDigit
      if digits.isEmpty then .error [c] else .ok (1 + digits.length)
    else if c == 'u' || c == 'U' then
      let width := if c == 'u' then 4 else 8
      let digits := (rest.take width).takeWhile isHexDigit
      if digits.length = width then .ok (1 + width) else .error (c :: digits)
    else .error [c]

/-- The first backslash of a text at `offset` that starts no escape, with the sequence it
spoils. -/
def invalidEscapeFrom (offset : Nat) : List Char → Option (Nat × List Char)
  | [] => none
  | c :: rest =>
    if c = '\\' then
      match escapeExtent rest with
      | .error spoiled => some (offset, c :: spoiled)
      | .ok count =>
        invalidEscapeFrom (offset + c.utf8Size + byteLength (rest.take count)) (rest.drop count)
    else invalidEscapeFrom (offset + c.utf8Size) rest
termination_by text => text.length
decreasing_by
  · simp only [List.length_cons, List.length_drop]; omega
  · simp only [List.length_cons]; omega

def findInvalidEscape (literal : List Char) : Option (Nat × List Char) :=
  invalidEscapeFrom 0 literal

end OpenCLTree

import OpenCLTree.Text

namespace OpenCLTree

def positionLetters : List Char := ['x', 'y', 'z', 'w']

def colorLetters : List Char := ['r', 'g', 'b', 'a']

/-- The names that select vector components: up to four of `xyzw`, up to four of `rgba`,
or `s` with up to sixteen hexadecimal digits. -/
def isSwizzle : List Char → Bool
  | [] => false
  | c :: rest =>
    if c == 's' || c == 'S' then
      decide (1 ≤ rest.length) && decide (rest.length ≤ 16) && rest.all isHexDigit
    else
      decide (rest.length ≤ 3) &&
        ((c :: rest).all positionLetters.contains || (c :: rest).all colorLetters.contains)

/-- The component name right after a dot. All word characters are read before judging, so
`xyzw2` selects nothing. -/
def accessorName? (text : List Char) : Option (List Char) :=
  let name := text.takeWhile isWordChar
  if isSwizzle name then some name else none

end OpenCLTree

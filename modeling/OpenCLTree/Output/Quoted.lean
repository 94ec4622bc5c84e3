import OpenCLTree.Lexical.Token

namespace OpenCLTree

def hexText (value : Nat) : List Char :=
  Nat.toDigits 16 value

/-- Ranges of characters that leave no mark of their own: controls, format characters,
separators other than the space, and marks that combine with the character before them. -/
def unmarkedRanges : List (Nat × Nat) := [
  (0x00, 0x1f), (0x7f, 0xa0), (0xad, 0xad), (0x300, 0x36f), (0x483, 0x489), (0x591, 0x5bd),
  (0x5bf, 0x5bf), (0x5c1, 0x5c2), (0x5c4, 0x5c5), (0x5c7, 0x5c7), (0x600, 0x605),
  (0x610, 0x61a), (0x61c, 0x61c), (0x64b, 0x65f), (0x670, 0x670), (0x6d6, 0x6dd),
  (0x6df, 0x6e4), (0x6e7, 0x6e8), (0x6ea, 0x6ed), (0x1680, 0x1680), (0x180b, 0x180f),
  (0x1ab0, 0x1ace), (0x1dc0, 0x1dff), (0x2000, 0x200f), (0x2028, 0x202f), (0x205f, 0x206f),
  (0x20d0, 0x20f0), (0x302a, 0x302f), (0x3000, 0x3000), (0x3099, 0x309a), (0xe000, 0xf8ff),
  (0xfe00, 0xfe0f), (0xfe20, 0xfe2f), (0xfeff, 0xfeff), (0xfff9, 0xfffb),
  (0xe0001, 0xe007f), (0xe0100, 0xe01ef), (0xf0000, 0x10ffff)]

def isUnmarked (c : Char) : Bool :=
  unmarkedRanges.any fun range => range.1 ≤ c.toNat && c.toNat ≤ range.2

/-- How a character is written between double quotes. -/
def quotedChar (c : Char) : List Char :=
  if c = '"' then ['\\', '"']
  else if c = '\\' then ['\\', '\\']
  else if c = '\n' then ['\\', 'n']
  else if c = '\r' then ['\\', 'r']
  else if c = '\t' then ['\\', 't']
  else if c = '\x00' then ['\\', '0']
  else if isUnmarked c then "\\u\x7b".toList ++ hexText c.toNat ++ ['\x7d']
  else [c]

/-- A text between double quotes, with the characters that would not show escaped. -/
def quoted (text : String) : String :=
  String.ofList ('"' :: text.toList.flatMap quotedChar ++ ['"'])

def Token.listing (token : Token) : String :=
  token.kind.name ++ " " ++ quoted token.text ++ " @ " ++ toString token.span.start ++ ".." ++
    toString token.span.stop

/-- One line for each token: its kind, its text and its span. -/
def listTokens (tokens : List Token) : String :=
  String.intercalate "\n" (tokens.map Token.listing)

end OpenCLTree

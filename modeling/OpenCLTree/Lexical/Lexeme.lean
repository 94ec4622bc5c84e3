import OpenCLTree.Lexical.Escape
import OpenCLTree.Lexical.LexError
import OpenCLTree.Lexical.Swizzle
import OpenCLTree.Lexical.TokenRule

namespace OpenCLTree

/-- Whether a dot takes the component names after it along. -/
inductive LexMode
  | normal | suffix
  deriving DecidableEq

/-- What a piece of text turned out to be. A malformed piece may still stand for a token. -/
inductive Finding
  | trivia
  | token (kind : TokenKind)
  | malformed (error : LexErrorKind) (kind : Option TokenKind)

def Finding.tokenKind? : Finding → Option TokenKind
  | .trivia => none
  | .token kind => some kind
  | .malformed _ kind => kind

def Finding.error? : Finding → Option LexErrorKind
  | .malformed error _ => some error
  | _ => none

/-- The number of characters through the end of a block comment. -/
def commentExtent? : List Char → Option Nat
  | '*' :: '/' :: _ => some 2
  | _ :: rest => (commentExtent? rest).map (· + 1)
  | [] => none

def isBlank (c : Char) : Bool :=
  c == ' ' || c == '\t'

/-- A hash mark with blanks after it takes them along unless a word follows. -/
def spacedHash? : List Char → Option (Finding × Nat)
  | '#' :: rest =>
    let blanks := rest.takeWhile isBlank
    if blanks.isEmpty || ((rest.dropWhile isBlank).head?.any isWordStart) then none
    else some (.token (.punct .hash), 1 + blanks.length)
  | _ => none

/-- A wide character literal that is cut off right after a lone backslash reads as a name. -/
def cutWideChar? : List Char → Option (Finding × Nat)
  | ['L', '\'', '\\'] => some (.token .identifier, 2)
  | 'L' :: '\'' :: '\\' :: '\n' :: _ => some (.token .identifier, 2)
  | _ => none

/-- Whether an exponent mark begins a complete binary exponent. -/
def startsBinaryExponent : List Char → Bool
  | mark :: rest =>
    let number := match rest with
      | '+' :: after => after
      | '-' :: after => after
      | _ => rest
    (mark == 'p' || mark == 'P') && number.head?.any Char.isDigit
  | [] => false

/-- A hexadecimal fraction without its exponent is no number. An exponent mark after it is
dropped along with it, unless it ends the text. -/
def unscaledHexFloat? : List Char → Option (Finding × Nat)
  | '0' :: x :: body =>
    let whole := body.takeWhile isHexDigit
    match body.dropWhile isHexDigit with
    | '.' :: tail =>
      let fraction := tail.takeWhile isHexDigit
      let after := tail.dropWhile isHexDigit
      if (x == 'x' || x == 'X') && !(whole.isEmpty && fraction.isEmpty) &&
          !startsBinaryExponent after then
        let mark := match after with
          | 'p' :: _ :: _ => 1
          | 'P' :: _ :: _ => 1
          | _ => 0
        some (.malformed .unrecognizedCharacter none,
          3 + whole.length + fraction.length + mark)
      else none
    | _ => none
  | _ => none

/-- The three spellings that are not read by the longest rule. -/
def irregular? (text : List Char) : Option (Finding × Nat) :=
  (spacedHash? text).or ((cutWideChar? text).or (unscaledHexFloat? text))

/-- Judges the `count` characters at the head of a text that a rule has recognized. -/
def judge (recognized : Recognized) (count : Nat) (text : List Char) : Finding × Nat :=
  match recognized with
  | .blank | .lineComment => (.trivia, count)
  | .commentOpening =>
    match commentExtent? (text.drop count) with
    | some extent => (.trivia, count + extent)
    | none => (.malformed .unterminatedComment none, text.length)
  | .token kind => (.token kind, count)
  | .quotation kind =>
    match findInvalidEscape (text.take count) with
    | some (offset, sequence) =>
      (.malformed (.invalidEscape (String.ofList sequence) offset) (some kind), count)
    | none => (.token kind, count)
  | .openQuotation kind =>
    let error := if kind = .character then .unterminatedChar else .unterminatedString
    (.malformed error (some kind), count)

/-- What stands at the head of a text, and how many characters it takes. -/
def findingAt (text : List Char) : Finding × Nat :=
  match irregular? text with
  | some found => found
  | none =>
    match TokenRule.longest? text with
    | some (recognized, count) => judge recognized count text
    | none => (.malformed .unrecognizedCharacter none, 1)

/-- In suffix mode a dot and the component names right after it are one accessor. -/
def findingIn (mode : LexMode) (text : List Char) : Finding × Nat :=
  let found := findingAt text
  match mode, found.1 with
  | .suffix, .token (.punct .dot) =>
    match accessorName? (text.drop found.2) with
    | some name => (.token .swizzle, found.2 + name.length)
    | none => found
  | _, _ => found

end OpenCLTree

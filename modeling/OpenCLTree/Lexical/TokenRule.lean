import OpenCLTree.Lexical.Pattern
import OpenCLTree.Lexical.TokenKind
import OpenCLTree.Text

namespace OpenCLTree

/-- What a rule recognizes. A quotation is closed by its quote; an open one is not. -/
inductive Recognized
  | blank
  | lineComment
  | commentOpening
  | token (kind : TokenKind)
  | quotation (kind : TokenKind)
  | openQuotation (kind : TokenKind)
  deriving DecidableEq

structure TokenRule where
  recognized : Recognized
  pattern : Pattern

namespace TokenRule

open Pattern

def blanks : Pattern :=
  atLeastOnce (oneOf [' ', '\t', '\r', '\n', '\x0c', '\x0b'])

/-- A backslash at the end of a line joins the next line to it. -/
def continuation : Pattern :=
  seq (char '\\') (seq (optional (char '\r')) (char '\n'))

def word : Pattern :=
  seq (one isWordStart) (many (one isWordChar))

def vectorName : Pattern :=
  seq
    (anyOf (["char", "uchar", "short", "ushort", "int", "uint", "long", "ulong", "float",
      "double", "half", "bool"].map (text ·.toList)))
    (anyOf (["2", "3", "4", "8", "16"].map (text ·.toList)))

def digits : Pattern :=
  atLeastOnce (one Char.isDigit)

def hexDigits : Pattern :=
  atLeastOnce (one isHexDigit)

def hexMark : Pattern :=
  seq (char '0') (oneOf ['x', 'X'])

def integerSuffix : Pattern :=
  many (oneOf ['u', 'U', 'l', 'L'])

def floatSuffix : Pattern :=
  optional (oneOf ['f', 'F', 'h', 'H', 'l', 'L'])

def exponent (mark : List Char) : Pattern :=
  seq (oneOf mark) (seq (optional (oneOf ['+', '-'])) digits)

def hexInteger : Pattern :=
  seq hexMark (seq hexDigits integerSuffix)

def hexFloat : Pattern :=
  seq hexMark
    (seq
      (either
        (seq hexDigits (seq (optional (char '.')) (many (one isHexDigit))))
        (seq (char '.') hexDigits))
      (seq (exponent ['p', 'P']) floatSuffix))

def decimalInteger : Pattern :=
  seq digits integerSuffix

def pointFloat : Pattern :=
  seq digits
    (seq (char '.')
      (seq (many (one Char.isDigit)) (seq (optional (exponent ['e', 'E'])) floatSuffix)))

def fractionFloat : Pattern :=
  seq (char '.') (seq digits (seq (optional (exponent ['e', 'E'])) floatSuffix))

def exponentFloat : Pattern :=
  seq digits (seq (exponent ['e', 'E']) floatSuffix)

/-- One character of a literal: an escaped one, or one that is neither the quote nor a
backslash. Neither may be a line feed. -/
def literalChar (quote : Char) : Pattern :=
  either (one fun c => c != quote && c != '\\' && c != '\n')
    (seq (char '\\') (one (· != '\n')))

def stringOpening : Pattern :=
  seq (optional (either (char 'L') (text ['u', '8']))) (char '"')

def charOpening : Pattern :=
  seq (optional (char 'L')) (char '\'')

def directiveWord (name : Pattern) : Pattern :=
  seq (char '#') (seq (many (oneOf [' ', '\t'])) name)

def lineComment : Pattern :=
  seq (text ['/', '/']) (many (one (· != '\n')))

/-- All rules. Of two rules that match equally far the earlier one wins, so the fixed
spellings stand before the identifiers and the pragma marker before the directives. -/
def all : List TokenRule :=
  [⟨.blank, blanks⟩, ⟨.blank, continuation⟩] ++
  Qualifier.aliases.map (fun entry => ⟨.token (.qualifier entry.2), text entry.1.toList⟩) ++
  Keyword.spellings.map (fun entry => ⟨.token (.keyword entry.2), text entry.1.toList⟩) ++
  [⟨.token (.keyword .vectorType), vectorName⟩,
    ⟨.token .identifier, word⟩,
    ⟨.token .number, hexInteger⟩,
    ⟨.token .number, hexFloat⟩,
    ⟨.token .number, decimalInteger⟩,
    ⟨.token .number, pointFloat⟩,
    ⟨.token .number, fractionFloat⟩,
    ⟨.token .number, exponentFloat⟩,
    ⟨.quotation .string, seq stringOpening (seq (many (literalChar '"')) (char '"'))⟩,
    ⟨.openQuotation .string, seq stringOpening (many (literalChar '"'))⟩,
    ⟨.quotation .character,
      seq charOpening (seq (atLeastOnce (literalChar '\'')) (char '\''))⟩,
    ⟨.openQuotation .character, seq charOpening (many (literalChar '\''))⟩,
    ⟨.token .pragma, directiveWord (text "pragma".toList)⟩,
    ⟨.token .directive, directiveWord (atLeastOnce (one isWordStart))⟩] ++
  Punctuator.all.map (fun mark => ⟨.token (.punct mark), text mark.spelling.toList⟩) ++
  [⟨.lineComment, lineComment⟩, ⟨.commentOpening, text ['/', '*']⟩]

/-- What is left of the rules that can still match once `c` is read. -/
def advance (c : Char) (rules : List TokenRule) : List TokenRule :=
  (rules.map fun rule => { rule with pattern := rule.pattern.derivative c }).filter
    fun rule => !rule.pattern.isNever

/-- The first rule that has matched all it needs. -/
def complete? (rules : List TokenRule) : Option Recognized :=
  (rules.find? (·.pattern.nullable)).map (·.recognized)

/-- The longest match, given the rules left after `taken` characters and the best match so
far, with the number of its characters. -/
def longestFrom (rules : List TokenRule) (taken : Nat) (best : Option (Recognized × Nat)) :
    List Char → Option (Recognized × Nat)
  | [] => best
  | c :: rest =>
    match advance c rules with
    | [] => best
    | alive =>
      let best := match complete? alive with
        | some recognized => some (recognized, taken + 1)
        | none => best
      longestFrom alive (taken + 1) best rest

/-- The longest nonempty match of any rule at the head of a text. -/
def longest? (text : List Char) : Option (Recognized × Nat) :=
  longestFrom all 0 none text

end TokenRule

end OpenCLTree

import OpenCLTree.Lexical.Lexeme
import OpenCLTree.Lexical.Token

namespace OpenCLTree

/-- A token as the grammar meets it. Its span counts tokens of the stream. A dot that is
directly followed by component names also has a reading that takes them along. -/
structure Word where
  token : Token
  accessor : Option Token

namespace Word

/-- The accessor that a dot and the next token make. -/
def accessorOf? (place : Nat) (dot name : Token) : Option Token :=
  if dot.kind = .punct .dot ∧ name.kind = .identifier ∧ name.span.start = dot.span.stop ∧
      isSwizzle name.text.toList then
    some ⟨.swizzle, dot.text ++ name.text, ⟨place, place + 2⟩, dot.newlineBefore⟩
  else none

/-- The words of a token stream whose first token has the number `place`. -/
def ofTokensFrom (place : Nat) : List Token → List Word
  | [] => []
  | token :: rest =>
    ⟨{ token with span := ⟨place, place + 1⟩ }, rest.head?.bind (accessorOf? place token)⟩ ::
      ofTokensFrom (place + 1) rest

def ofTokens (tokens : List Token) : List Word :=
  ofTokensFrom 0 tokens

/-- Reads the first of some words in a mode. -/
def read? (mode : LexMode) : List Word → Option (Token × List Word)
  | [] => none
  | word :: rest =>
    match mode, word.accessor with
    | .suffix, some accessor => some (accessor, rest.tail)
    | _, _ => some (word.token, rest)

/-- The word after `ahead` others, all read in one mode. -/
def peek? (mode : LexMode) : Nat → List Word → Option Token
  | 0, words => (read? mode words).map (·.1)
  | ahead + 1, words => (read? mode words).bind fun (_, rest) => peek? mode ahead rest

end Word

/-- A place in a token stream: the tokens taken so far, the latest first, and the words still
to come. -/
structure Cursor where
  mode : LexMode
  taken : List Token
  rest : List Word

namespace Cursor

def ofTokens (tokens : List Token) : Cursor :=
  ⟨.normal, [], Word.ofTokens tokens⟩

def setMode (cursor : Cursor) (mode : LexMode) : Cursor :=
  { cursor with mode }

def peek? (cursor : Cursor) (ahead : Nat) : Option Token :=
  Word.peek? cursor.mode ahead cursor.rest

/-- Takes the next token as the mode reads it. -/
def advance? (cursor : Cursor) : Option (Token × Cursor) :=
  (Word.read? cursor.mode cursor.rest).map fun (token, rest) =>
    (token, { cursor with taken := token :: cursor.taken, rest })

/-- The number of tokens of the stream that have been passed. -/
def place (cursor : Cursor) : Nat :=
  match cursor.taken with
  | [] => 0
  | token :: _ => token.span.stop

/-- The tokens taken since a checkpoint, in order. -/
def takenSince (cursor checkpoint : Cursor) : List Token :=
  (cursor.taken.take (cursor.taken.length - checkpoint.taken.length)).reverse

end Cursor

end OpenCLTree

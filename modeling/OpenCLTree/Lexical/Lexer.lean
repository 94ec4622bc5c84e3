import OpenCLTree.Lexical.Lexeme
import OpenCLTree.Lexical.Token

namespace OpenCLTree

/-- A lexer on its way through a source. The text `since` begins at `lastEnd`, the end of
the last token; it is missing when that offset falls inside a character. Of the errors found
so far the one with the greatest offset comes first. -/
structure Lexer where
  source : List Char
  mode : LexMode
  offset : Nat
  rest : List Char
  lastEnd : Nat
  since : Option (List Char)
  errors : List LexError

/-- Whether a line ends in the text between two tokens. A line feed right after a backslash,
or after a backslash and a carriage return, ends none. -/
def breaksLine : List Char → Bool
  | '\\' :: '\n' :: rest => breaksLine rest
  | '\\' :: '\r' :: '\n' :: rest => breaksLine rest
  | '\n' :: _ => true
  | _ :: rest => breaksLine rest
  | [] => false

namespace Lexer

def ofText (source : List Char) : Lexer :=
  ⟨source, .normal, 0, source, 0, some source, []⟩

/-- The text between the last token and `start`, which is empty when that token ends later. -/
def gap? (lexer : Lexer) (start : Nat) : Option (List Char) :=
  if lexer.lastEnd < start then lexer.since.bind (takeBytes? (start - lexer.lastEnd))
  else some []

def record (lexer : Lexer) (finding : Finding) (lexeme : List Char) : List LexError :=
  match finding.error? with
  | none => lexer.errors
  | some kind =>
    let offset := match kind with
      | .invalidEscape _ inside => lexer.offset + inside
      | _ => lexer.offset
    LexError.insertInto ⟨kind, offset, String.ofList lexeme⟩ lexer.errors

/-- Reads the next token. Trivia and what stands for no token are passed over. -/
def next (lexer : Lexer) : Option Token × Lexer :=
  match _ : lexer.rest with
  | [] => (none, lexer)
  | c :: rest =>
    let found := findingIn lexer.mode (c :: rest)
    let lexeme := c :: rest.take (found.2 - 1)
    let start := lexer.offset
    let stop := start + byteLength lexeme
    let after := { lexer with
      offset := stop
      rest := rest.drop (found.2 - 1)
      errors := lexer.record found.1 lexeme }
    match found.1.tokenKind? with
    | none => next after
    | some kind =>
      (some ⟨kind, String.ofList lexeme, ⟨start, stop⟩, (lexer.gap? start).any breaksLine⟩,
        { after with lastEnd := stop, since := some after.rest })
termination_by lexer.rest.length
decreasing_by
  simp only [*, List.length_drop, List.length_cons]
  omega

theorem next_rest_lt {lexer after : Lexer} {token : Token} (read : lexer.next = (some token, after)) :
    after.rest.length < lexer.rest.length := by
  fun_induction next lexer generalizing after with
  | case1 => simp at read
  | case2 =>
    rename_i text _ _ _ _ skipped _ ih
    have shorter := ih read
    simp only [text, List.length_cons, skipped, List.length_drop] at shorter ⊢
    omega
  | case3 =>
    rename_i text _ _ _ _ skipped _ _
    obtain ⟨_, rfl⟩ := Prod.mk.inj read
    simp only [text, List.length_cons, skipped, List.length_drop]
    omega

/-- Reads all remaining tokens. -/
def drain (lexer : Lexer) : List Token × Lexer :=
  match _ : lexer.next with
  | (none, after) => ([], after)
  | (some token, after) =>
    let (tokens, last) := after.drain
    (token :: tokens, last)
termination_by lexer.rest.length
decreasing_by all_goals exact next_rest_lt ‹_›

/-- Starts over at an offset, as if the last token had ended at `previousEnd`. There must be
a character, or the end, at the offset. -/
def reset? (lexer : Lexer) (offset previousEnd : Nat) : Option Lexer :=
  (dropBytes? offset lexer.source).map fun rest =>
    { lexer with
      offset := offset
      rest := rest
      lastEnd := previousEnd
      since := dropBytes? previousEnd lexer.source }

/-- Reads the next token, if the text before it can be cut out of the source. -/
def next? (lexer : Lexer) : Option (Option Token × Lexer) :=
  match lexer.next with
  | (none, after) => some (none, after)
  | (some token, after) =>
    if (lexer.gap? token.span.start).isSome then some (some token, after) else none

/-- Reads all remaining tokens, if the text before each can be cut out of the source. Only
the first of them can come after a badly placed end. -/
def drain? (lexer : Lexer) : Option (List Token × Lexer) :=
  (lexer.next?).map fun _ => lexer.drain

/-- Hands over the errors found so far, in the order of their offsets. -/
def takeErrors (lexer : Lexer) : List LexError × Lexer :=
  (lexer.errors.reverse, { lexer with errors := [] })

end Lexer

/-- The tokens of a source, and its lexical errors in the order of their offsets. -/
def tokenize (source : String) : List Token × List LexError :=
  let (tokens, lexer) := (Lexer.ofText source.toList).drain
  (tokens, lexer.takeErrors.1)

/-- The tokens of a source as one mode reads them. -/
def tokensIn (mode : LexMode) (source : String) : List Token :=
  { Lexer.ofText source.toList with mode }.drain.1

end OpenCLTree

import OpenCLTree.Grammar.SourceFile
import OpenCLTree.Lexical.Lexer
import OpenCLTree.Syntax.Tree

namespace OpenCLTree

/-- The bytes under a span of tokens. The empty span after the last token is the end of the
source. -/
def Span.locate (places : Array Span) (size : Nat) (span : Span) : Span :=
  if span.start < span.stop then
    match places[span.start]?, places[span.stop - 1]? with
    | some first, some last => ⟨first.start, last.stop⟩
    | _, _ => ⟨size, size⟩
  else ⟨size, size⟩

/-- What the grammar makes of a token stream: items and errors whose spans count tokens. -/
structure Reading where
  items : List Node
  errors : List ParseError

namespace Reading

/-- Reads a token stream. The rules of the grammar call around only after taking a token,
so as many calls as there are tokens can be nested in each other. -/
def ofTokens? (tokens : List Token) : Option Reading :=
  match sourceItems (Grammar.ofDepth tokens.length) (GrammarState.ofTokens tokens) with
  | .done items state => some ⟨items, state.reports⟩
  | _ => none

/-- The reading of a stream that cannot be read otherwise: one error item for all tokens. -/
def unread (tokens : List Token) : Reading :=
  ⟨[.make .error ((Word.ofTokens tokens).map fun word => word.token.toChild)], []⟩

def ofTokens (tokens : List Token) : Reading :=
  (ofTokens? tokens).getD (unread tokens)

def mapSpan (place : Span → Span) (reading : Reading) : Reading :=
  ⟨reading.items.map (·.mapSpan place), reading.errors.map (·.mapSpan place)⟩

end Reading

/-- A source with its tree and its diagnostics. -/
structure Parsed where
  tree : Tree
  diagnostics : List Diagnostic

/-- Parses a source. The grammar sees only the tokens; spans are found last, from the places
of the tokens in the source. -/
def parse (source : String) : Parsed :=
  let text := source.toList
  let size := byteLength text
  let (tokens, lexErrors) := tokenize source
  let places := (tokens.map (·.span)).toArray
  let reading := (Reading.ofTokens tokens).mapSpan (Span.locate places size)
  let root := Node.mk .sourceFile ⟨0, size⟩ (reading.items.map Node.toChild)
  ⟨⟨source, root⟩, Diagnostic.ofErrors text (lexErrors.map .lexical ++ reading.errors)⟩

end OpenCLTree

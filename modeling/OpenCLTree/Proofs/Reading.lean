import OpenCLTree.Proofs.Grammar.SourceFile
import OpenCLTree.Parse

namespace OpenCLTree

theorem Word.length_ofTokensFrom (place : Nat) (tokens : List Token) :
    (ofTokensFrom place tokens).length = tokens.length := by
  induction tokens generalizing place with
  | nil => rfl
  | cons token rest ih => simp [ofTokensFrom, ih]

theorem Word.accessor_isSwizzle {place : Nat} {tokens : List Token} {word : Word} {accessor : Token}
    (member : word ∈ ofTokensFrom place tokens) (some : word.accessor = some accessor) :
    accessor.kind = .swizzle := by
  induction tokens generalizing place with
  | nil => cases member
  | cons token rest ih =>
    rw [ofTokensFrom, List.mem_cons] at member
    obtain rfl | later := member
    · obtain ⟨name, _, joined⟩ := Option.bind_eq_some_iff.mp some
      unfold accessorOf? at joined
      split at joined <;> cases joined
      rfl
    · exact ih later

theorem GrammarState.ofTokens_fits (tokens : List Token) :
    (ofTokens tokens).Fits (tokens.length + 1) where
  lawful := ⟨rfl, fun _ member _ => Word.accessor_isSwizzle member⟩
  fewer := by
    rw [remaining, ofTokens, Cursor.ofTokens, Word.ofTokens, Word.length_ofTokensFrom]
    exact Nat.lt_succ_self _

/-- The grammar has room enough for every token stream. -/
theorem Reading.ofTokens_run (tokens : List Token) : ∃ last,
    sourceItems (Grammar.ofDepth tokens.length) (.ofTokens tokens) = .done (ofTokens tokens).items last ∧
      (ofTokens tokens).errors = last.reports := by
  have meets := Rule.sourceItems_reads (Grammar.ofDepth_serves tokens.length)
    (GrammarState.ofTokens_fits tokens)
  rcases meets.ends with ⟨items, last, run, _⟩ | ⟨_, _, _, never⟩
  · have same : ofTokens tokens = ⟨items, last.reports⟩ := by simp [ofTokens, ofTokens?, run]
    exact ⟨last, by rw [same, run], by rw [same]⟩
  · exact never.elim

/-- Every token stream is read: into items that reach up to its end. -/
theorem Reading.ofTokens_reads (tokens : List Token) :
    ∃ last, ReadsItems (.ofTokens tokens) (ofTokens tokens).items last ∧
      last.cursor.rest = [] ∧ (ofTokens tokens).errors = last.reports := by
  obtain ⟨last, run, errors⟩ := ofTokens_run tokens
  obtain ⟨read, ended⟩ := (Rule.sourceItems_reads (Grammar.ofDepth_serves tokens.length)
    (GrammarState.ofTokens_fits tokens)).of_done run
  refine ⟨last, read, ?_, errors⟩
  cases rest : last.cursor.rest with
  | nil => rfl
  | cons word words =>
    simp only [Cursor.peek?, Word.peek?, rest, Option.map_eq_none_iff] at ended
    unfold Word.read? at ended
    split at ended
    · contradiction
    · split at ended <;> cases ended

theorem Reading.errors_grammatical (tokens : List Token) :
    ∀ error ∈ (ofTokens tokens).errors, error.IsGrammatical := by
  obtain ⟨last, read, _, errors⟩ := ofTokens_reads tokens
  obtain ⟨added, reports, grammatical⟩ := read.reads.reports
  have all : last.reports = added := reports
  rwa [errors, all]

/-- Where spans that count the tokens of a stream lie in the text. -/
abbrev Span.placeIn (tokens : List Token) (size : Nat) : Span → Span :=
  Span.locate (tokens.map (·.span)).toArray size

theorem parse_root (source : String) :
    (parse source).tree.root = .mk .sourceFile ⟨0, byteLength source.toList⟩
      (((Reading.ofTokens (tokenize source).1).items.map
        (·.mapSpan (Span.placeIn (tokenize source).1 (byteLength source.toList)))).map Node.toChild) :=
  rfl

theorem parse_items (source : String) :
    (parse source).tree.items = (Reading.ofTokens (tokenize source).1).items.map
      (·.mapSpan (Span.placeIn (tokenize source).1 (byteLength source.toList))) := by
  rw [Tree.items, parse_root, Node.childNodes_mk, Child.nodes_toChild]

theorem ParseError.span_mapSpan (place : Span → Span) {error : ParseError}
    (grammatical : error.kind ≠ .lexical) : (error.mapSpan place).span = place error.span := by
  cases error <;> first | rfl | exact absurd rfl grammatical

/-- The errors of the grammar in a source, where they lie in it. -/
def grammarErrors (source : String) : List ParseError :=
  (Reading.ofTokens (tokenize source).1).errors.map
    (·.mapSpan (Span.placeIn (tokenize source).1 (byteLength source.toList)))

theorem parse_diagnostics (source : String) :
    (parse source).diagnostics = Diagnostic.ofErrors source.toList
      ((tokenize source).2.map .lexical ++ grammarErrors source) :=
  rfl

end OpenCLTree

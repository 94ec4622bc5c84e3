import OpenCLTree.Proofs.Diagnostics
import OpenCLTree.Proofs.Lexical.Spaced

namespace OpenCLTree

/-- Tokens that differ at most in their places. -/
structure Token.Alike (one two : Token) : Prop where
  kind : one.kind = two.kind
  text : one.text = two.text
  newlineBefore : one.newlineBefore = two.newlineBefore

/-- Token streams that differ at most in the places of the tokens, except that what stands
right after a dot in one does so in the other. -/
structure SameStream (one two : List Token) : Prop where
  length : one.length = two.length
  alike {i : Nat} {token other : Token} :
    one[i]? = some token → two[i]? = some other → token.Alike other
  adjacent {i : Nat} {dot name dot' name' : Token} :
    one[i]? = some dot → one[i + 1]? = some name → two[i]? = some dot' →
      two[i + 1]? = some name' → dot.kind = .punct .dot →
      (name.span.start = dot.span.stop ↔ name'.span.start = dot'.span.stop)

theorem SameStream.tail {token other : Token} {one two : List Token}
    (same : SameStream (token :: one) (other :: two)) : SameStream one two where
  length := Nat.succ.inj same.length
  alike {i} := same.alike (i := i + 1)
  adjacent {i} := same.adjacent (i := i + 1)

theorem Word.accessorOf?_congr {place : Nat} {dot name dot' name' : Token} (dots : dot.Alike dot')
    (names : name.Alike name') (adjacent : dot.kind = .punct .dot →
      (name.span.start = dot.span.stop ↔ name'.span.start = dot'.span.stop)) :
    accessorOf? place dot name = accessorOf? place dot' name' := by
  unfold accessorOf?
  simp only [← dots.kind, ← dots.text, ← dots.newlineBefore, ← names.kind, ← names.text]
  by_cases isDot : dot.kind = .punct .dot
  · simp only [adjacent isDot]
  · simp only [isDot, false_and]

theorem SameStream.ofTokensFrom {one two : List Token} (same : SameStream one two) (place : Nat) :
    Word.ofTokensFrom place one = Word.ofTokensFrom place two := by
  induction one generalizing two place with
  | nil =>
    cases two with
    | nil => rfl
    | cons => cases same.length
  | cons token rest ih =>
    cases two with
    | nil => cases same.length
    | cons other others =>
      have alike : token.Alike other := same.alike (i := 0) rfl rfl
      have accessor : rest.head?.bind (Word.accessorOf? place token) =
          others.head?.bind (Word.accessorOf? place other) := by
        cases rest with
        | nil =>
          cases others with
          | nil => rfl
          | cons => cases same.tail.length
        | cons name =>
          cases others with
          | nil => cases same.tail.length
          | cons name' =>
            exact Word.accessorOf?_congr alike (same.alike (i := 1) rfl rfl)
              (same.adjacent (i := 0) rfl rfl rfl rfl)
      rw [Word.ofTokensFrom, Word.ofTokensFrom, ih same.tail, accessor, alike.kind, alike.text,
        alike.newlineBefore]

theorem SameStream.reading {one two : List Token} (same : SameStream one two) :
    Reading.ofTokens one = Reading.ofTokens two := by
  have words : Word.ofTokens one = Word.ofTokens two := same.ofTokensFrom 0
  simp only [Reading.ofTokens, Reading.ofTokens?, Reading.unread, GrammarState.ofTokens,
    Cursor.ofTokens, words, same.length]

/-- Where the token with a number starts; the text ends after the last token. -/
def Token.startAt (tokens : List Token) (size i : Nat) : Nat :=
  ((tokens[i]?).map (·.span.start)).getD size

/-- The number of the token that a span of tokens starts with, or the number of all tokens when
the span stands for the end of the text. -/
def Span.rank (count : Nat) (span : Span) : Nat :=
  if span.start < span.stop ∧ span.stop ≤ count then span.start else count

theorem Span.rank_le (count : Nat) (span : Span) : span.rank count ≤ count := by
  unfold rank
  split <;> omega

theorem Span.start_placeIn (tokens : List Token) (size : Nat) (span : Span) :
    (placeIn tokens size span).start = Token.startAt tokens size (span.rank tokens.length) := by
  unfold placeIn locate rank Token.startAt
  by_cases nonempty : span.start < span.stop
  · by_cases within : span.stop ≤ tokens.length
    · have atFirst := List.getElem?_eq_getElem (show span.start < tokens.length by omega)
      have atLast := List.getElem?_eq_getElem (show span.stop - 1 < tokens.length by omega)
      simp [nonempty, within, atFirst, atLast]
    · have outside : tokens.length ≤ span.stop - 1 := by omega
      simp [nonempty, within, outside]
  · simp [nonempty]

namespace Token.Ordered

variable {size : Nat} {tokens : List Token} {i j : Nat}

theorem startAt_lt (ordered : Ordered size 0 tokens) (less : i < j) (within : j ≤ tokens.length) :
    startAt tokens size i < startAt tokens size j := by
  have here := List.getElem?_eq_getElem (show i < tokens.length by omega)
  have bounds := ordered.nonempty _ (List.mem_of_getElem? here)
  obtain inside | rfl := Nat.lt_or_eq_of_le within
  · have there := List.getElem?_eq_getElem inside
    have apart := List.pairwise_iff_getElem.mp ordered.pairwise i j (by omega) inside less
    simp only [startAt, here, there, Option.map_some, Option.getD_some]
    omega
  · simp only [startAt, here, List.getElem?_eq_none (Nat.le_refl tokens.length), Option.map_some,
      Option.map_none, Option.getD_some, Option.getD_none]
    omega

theorem startAt_le_iff (ordered : Ordered size 0 tokens) (withinI : i ≤ tokens.length)
    (withinJ : j ≤ tokens.length) : startAt tokens size i ≤ startAt tokens size j ↔ i ≤ j := by
  constructor
  · intro le
    refine Nat.le_of_not_lt fun less => ?_
    exact absurd (ordered.startAt_lt less withinI) (Nat.not_lt.mpr le)
  · intro le
    obtain rfl | less := Nat.eq_or_lt_of_le le
    · exact Nat.le_refl _
    · exact Nat.le_of_lt (ordered.startAt_lt less withinJ)

end Token.Ordered

theorem placeIn_le_iff {size : Nat} {tokens : List Token} (ordered : Token.Ordered size 0 tokens)
    (one two : Span) :
    (Span.placeIn tokens size one).start ≤ (Span.placeIn tokens size two).start ↔
      one.rank tokens.length ≤ two.rank tokens.length := by
  rw [Span.start_placeIn, Span.start_placeIn,
    ordered.startAt_le_iff (Span.rank_le _ _) (Span.rank_le _ _)]

/-- The diagnostic for an error of the grammar. -/
def grammarDiagnostic (source : String) (error : ParseError) : Diagnostic :=
  let placed := error.mapSpan (Span.placeIn (tokenize source).1 (byteLength source.toList))
  ⟨placed, (LineIndex.ofText source.toList).position source.toList placed.span.start⟩

theorem start_grammarDiagnostic (source : String) {error : ParseError}
    (grammatical : error.IsGrammatical) :
    (grammarDiagnostic source error).span.start =
      (Span.placeIn (tokenize source).1 (byteLength source.toList) error.span).start := by
  cases error with
  | lexical => exact absurd rfl grammatical.2
  | _ => rfl

theorem filter_diagnostics (source : String) :
    (parse source).diagnostics.filter (·.kind != .lexical) =
      ((Reading.ofTokens (tokenize source).1).errors.map (grammarDiagnostic source)).mergeSort
        fun one two => one.span.start ≤ two.span.start := by
  refine (filter_diagnostics_error source (·.kind != .lexical)).trans ?_
  rw [filter_lexical, grammarErrors, List.map_map]
  rfl

/-- The diagnostics of the grammar are the errors of its reading, ordered by the numbers of the
tokens where they lie. -/
theorem grammar_diagnostics (source : String) :
    ((parse source).diagnostics.filter (·.kind != .lexical)).map
        (fun found => (found.kind, found.message)) =
      ((Reading.ofTokens (tokenize source).1).errors.mergeSort fun one two =>
        one.span.rank (tokenize source).1.length ≤ two.span.rank (tokenize source).1.length).map
          fun error => (error.kind, error.message) := by
  have ordered := tokenize_ordered source
  have grammatical := Reading.errors_grammatical (tokenize source).1
  have keys : ∀ one ∈ (Reading.ofTokens (tokenize source).1).errors,
      ∀ two ∈ (Reading.ofTokens (tokenize source).1).errors,
      decide (one.span.rank (tokenize source).1.length ≤ two.span.rank (tokenize source).1.length) =
        decide ((grammarDiagnostic source one).span.start ≤
          (grammarDiagnostic source two).span.start) := by
    intro one atOne two atTwo
    rw [start_grammarDiagnostic source (grammatical one atOne),
      start_grammarDiagnostic source (grammatical two atTwo)]
    exact decide_eq_decide.mpr (placeIn_le_iff ordered _ _).symm
  rw [filter_diagnostics, ← List.map_mergeSort keys, List.map_map]
  refine List.map_congr_left fun error _ => ?_
  exact Prod.ext (ParseError.kind_mapSpan _ error) (ParseError.message_mapSpan _ error)

theorem unplaced_root (source : String) :
    (parse source).tree.root.unplaced = .mk .sourceFile ⟨0, 0⟩
      (((Reading.ofTokens (tokenize source).1).items.map Node.unplaced).map Node.toChild) := by
  have again (item : Node) (_ : item ∈ (Reading.ofTokens (tokenize source).1).items) :
      (item.mapSpan (Span.placeIn (tokenize source).1 (byteLength source.toList))).unplaced =
        item.unplaced :=
    Node.mapSpan_mapSpan _ _ item
  rw [← List.map_congr_left again, parse_root, Node.unplaced, Node.mapSpan,
    Node.mapSpanOfChildren_toChild, List.map_map (l := (Reading.ofTokens _).items)]
  rfl

/-- The tree, apart from its places, and the diagnostics of the grammar depend on nothing but
the stream of the tokens. -/
theorem parse_sameStream {one two : String}
    (same : SameStream (tokenize one).1 (tokenize two).1) :
    (parse one).tree.root.unplaced = (parse two).tree.root.unplaced ∧
      ((parse one).diagnostics.filter (·.kind != .lexical)).map
          (fun found => (found.kind, found.message)) =
        ((parse two).diagnostics.filter (·.kind != .lexical)).map
          (fun found => (found.kind, found.message)) := by
  constructor
  · rw [unplaced_root, unplaced_root, same.reading]
  · rw [grammar_diagnostics, grammar_diagnostics, same.reading, same.length]

theorem SameStream.nil : SameStream [] [] where
  length := rfl
  alike here := by simp at here
  adjacent here := by simp at here

theorem SameStream.cons {token other : Token} {one two : List Token} (here : token.Alike other)
    (adjacent : ∀ {name name' : Token}, one.head? = some name → two.head? = some name' →
      (name.span.start = token.span.stop ↔ name'.span.start = other.span.stop))
    (later : SameStream one two) : SameStream (token :: one) (other :: two) where
  length := congrArg (· + 1) later.length
  alike {i _ _} atOne atTwo := by
    cases i with
    | zero =>
      cases atOne
      cases atTwo
      exact here
    | succ i => exact later.alike atOne atTwo
  adjacent {i _ _ _ _} atDot atName atDot' atName' isDot := by
    cases i with
    | zero =>
      cases atDot
      cases atDot'
      exact adjacent (List.head?_eq_getElem?.trans atName) (List.head?_eq_getElem?.trans atName')
    | succ i => exact later.adjacent atDot atName atDot' atName' isDot

/-- Where tokens that stand one blank apart begin makes no difference. -/
theorem Token.placedFrom_sameStream (tokens : List Token) (start start' : Nat) :
    SameStream (placedFrom start tokens) (placedFrom start' tokens) := by
  induction tokens generalizing start start' with
  | nil => exact .nil
  | cons token rest ih =>
    refine .cons ⟨rfl, rfl, rfl⟩ ?_ (ih _ _)
    intro name name' atName atName'
    cases rest with
    | nil => cases atName
    | cons next rest =>
      cases atName
      cases atName'
      simp

theorem parse_sameStream_indented :
    SameStream (tokenize "p . y ;").1 (tokenize " p . y ;").1 ∧
      (parse "p . y ;").tree.root.unplaced = (parse " p . y ;").tree.root.unplaced ∧
        ((parse "p . y ;").diagnostics.filter (·.kind != .lexical)).map
            (fun found => (found.kind, found.message)) =
          ((parse " p . y ;").diagnostics.filter (·.kind != .lexical)).map
            (fun found => (found.kind, found.message)) := by
  let tokens := [Token.leaf .identifier "p", Punctuator.dot.leaf, Token.leaf .identifier "y",
    Punctuator.semicolon.leaf]
  have name (text : String) (letter : text = "p" ∨ text = "y") : (Token.leaf .identifier text).IsSpelled := by
    rcases letter with rfl | rfl <;>
      exact IsName.isSpelled ⟨by decide +kernel, by decide +kernel, by decide +kernel, by decide +kernel⟩
  have spelled : ∀ token ∈ tokens, token.IsSpelled := by
    simp only [tokens, List.forall_mem_cons]
    exact ⟨name _ (by simp), Punctuator.leaf_isSpelled _ (by decide) (by decide), name _ (by simp),
      Punctuator.leaf_isSpelled _ (by decide) (by decide), by simp⟩
  have plain : tokenize "p . y ;" = (Token.placedFrom 0 tokens, []) := tokenize_spaced spelled
  have indented : (tokenize " p . y ;").1 = Token.placedFrom 1 tokens :=
    (Lexer.drain_blanked (.ofText " p . y ;".toList) spelled rfl rfl rfl rfl).1
  have same : SameStream (tokenize "p . y ;").1 (tokenize " p . y ;").1 := by
    rw [plain, indented]
    exact Token.placedFrom_sameStream tokens 0 1
  exact ⟨same, parse_sameStream same⟩

end OpenCLTree

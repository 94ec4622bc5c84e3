import OpenCLTree.Proofs.Lexical.Munch
import OpenCLTree.Proofs.Lexical.Passes
import OpenCLTree.Proofs.Lexical.Spaced

/-!
Reading goes by the longest match of the rules. What a lexer finds in front of it is the lexeme that
the rules leave no choice about; a comment is its opening mark and what follows it through the first
mark that ends one; and a character that no rule reads on from is dropped alone. The texts on which
reading deviates from this are set apart as irregular.
-/

namespace OpenCLTree

namespace Lexer

/-- How a lexer reads on by the longest match. -/
inductive Munches (lexer : Lexer) : Prop
  /-- A lexeme that stands for a token is read as that token. -/
  | token {lexeme : List Char} {found : Recognized} {kind : TokenKind} {token : Token}
      {after : Lexer} :
      Munch lexer.rest lexeme found → found.tokenKind? = some kind →
      lexer.next = (some token, after) → lexer.Passes after lexeme →
      token.kind = kind ∧ token.text = String.ofList lexeme ∧
        token.span = ⟨lexer.offset, after.offset⟩ → Munches lexer
  /-- Spaces and comments to the end of the line are passed over. -/
  | trivia {lexeme : List Char} {found : Recognized} {after : Lexer} :
      Munch lexer.rest lexeme found → found = .blank ∨ found = .lineComment →
      lexer.next = after.next → lexer.Passes after lexeme → after.errors = lexer.errors →
      Munches lexer
  /-- A block comment is passed over through the first mark that ends it. -/
  | comment {body : List Char} {after : Lexer} :
      Munch lexer.rest ['/', '*'] .commentOpening → ¬ ['*', '/'] <:+: body ++ ['*'] →
      lexer.next = after.next → lexer.Passes after (['/', '*'] ++ body ++ ['*', '/']) →
      after.errors = lexer.errors → Munches lexer
  /-- A block comment that no mark ends takes the rest of the text. -/
  | openComment {body : List Char} {after : Lexer} :
      Munch lexer.rest ['/', '*'] .commentOpening → ¬ ['*', '/'] <:+: body →
      lexer.next = (none, after) → lexer.Passes after (['/', '*'] ++ body) → after.rest = [] →
      after.errors = LexError.insertInto
        ⟨.unterminatedComment, lexer.offset, String.ofList (['/', '*'] ++ body)⟩ lexer.errors →
      Munches lexer
  /-- A character is dropped when no rule matches any text that begins with it. -/
  | dropped {c : Char} {after : Lexer} :
      (∀ rule ∈ TokenRule.all, ∀ front, front <+: lexer.rest → ¬ rule.pattern.Matches front) →
      lexer.next = after.next → lexer.Passes after [c] →
      after.errors = LexError.insertInto
        ⟨.unrecognizedCharacter, lexer.offset, String.ofList [c]⟩ lexer.errors →
      Munches lexer

variable {lexer : Lexer} {c : Char} {rest : List Char}

/-- A block comment is read by its marks. -/
theorem next_comment {lexeme : List Char} (front : lexer.rest = c :: rest)
    (munch : Munch (c :: rest) lexeme .commentOpening)
    (found : findingIn lexer.mode (c :: rest) = judge .commentOpening lexeme.length (c :: rest)) :
    lexer.Munches := by
  obtain rfl := TokenRule.eq_of_commentOpening munch
  obtain ⟨body, split⟩ := munch.leads
  obtain ⟨rfl, rfl⟩ := List.cons.inj split
  cases closing : commentExtent? body with
  | some extent =>
    obtain ⟨inside, tail, rfl, rfl, first⟩ := commentExtent?_eq_some closing
    have judged : judge .commentOpening 2 ('/' :: '*' :: (inside ++ ['*', '/'] ++ tail)) =
        (.trivia, 2 + (inside.length + 2)) := by
      simp only [judge, List.drop_succ_cons, List.drop_zero, closing]
    have reads := next_over front (found.trans judged) rfl
    have passes := pass_passes front (n := 2 + (inside.length + 2)) (by omega) .trivia
    have piece : ('/' :: '*' :: (inside ++ ['*', '/'] ++ tail)).take (2 + (inside.length + 2)) =
        ['/', '*'] ++ inside ++ ['*', '/'] := by
      rw [show '/' :: '*' :: (inside ++ ['*', '/'] ++ tail) =
        ['/', '*'] ++ inside ++ ['*', '/'] ++ tail by simp]
      exact List.take_left' (by simp; omega)
    exact .comment (front ▸ munch) first reads (piece ▸ passes) rfl
  | none =>
    have judged : judge .commentOpening 2 ('/' :: '*' :: body) =
        (.malformed .unterminatedComment none, ('/' :: '*' :: body).length) := by
      simp only [judge, List.drop_succ_cons, List.drop_zero, closing]
    have reads := next_over front (found.trans judged) rfl
    have positive : 0 < ('/' :: '*' :: body).length := Nat.succ_pos _
    have passes := pass_passes front positive (.malformed .unterminatedComment none)
    have errors := errors_pass lexer '/' ('*' :: body) positive
      (.malformed .unterminatedComment none)
    have ended := rest_pass lexer '/' ('*' :: body) positive
      (.malformed .unterminatedComment none)
    rw [List.drop_length] at ended
    have whole : ('/' :: '*' :: body).take ('/' :: '*' :: body).length = ['/', '*'] ++ body :=
      List.take_length
    rw [whole] at errors
    exact .openComment (front ▸ munch) (commentExtent?_eq_none closing)
      (reads.trans (next_none ended)) (whole ▸ passes) ended errors

theorem next_munches (normal : lexer.mode = .normal) (some : lexer.rest ≠ [])
    (regular : ¬ IsIrregular lexer.rest) : lexer.Munches := by
  obtain ⟨c, rest, front⟩ := List.exists_cons_of_ne_nil some
  rw [front] at regular
  have irregular : irregular? (c :: rest) = none := by
    rw [← Option.not_isSome_iff_eq_none, irregular?_isSome]
    exact regular
  have finding : findingIn lexer.mode (c :: rest) = findingAt (c :: rest) := by
    rw [normal]
    rfl
  rw [findingAt, irregular] at finding
  cases longest : TokenRule.longest? (c :: rest) with
  | none =>
    rw [longest] at finding
    exact .dropped (front ▸ TokenRule.not_matches_of_longest? longest) (next_over front finding rfl)
      (pass_passes front Nat.one_pos _) (errors_pass lexer c rest Nat.one_pos _)
  | some result =>
    obtain ⟨found, n⟩ := result
    rw [longest] at finding
    have isLongest := TokenRule.longest?_eq_some.mp longest
    have munch := TokenRule.munch_of_longest? longest
    cases stands : found.tokenKind? with
    | some kind =>
      obtain ⟨token, judged, taken⟩ := judge_token n (c :: rest) stands
      have reads := next_token front (finding.trans judged) isLongest.positive taken
      have passes := (pass_passes front isLongest.positive token).settle
      exact .token (front ▸ munch) stands reads passes ⟨rfl, rfl, by rw [passes.offset]⟩
    | none =>
      have passes := pass_passes front isLongest.positive .trivia
      cases found with
      | blank => exact .trivia (front ▸ munch) (.inl rfl) (next_over front finding rfl) passes rfl
      | lineComment =>
        exact .trivia (front ▸ munch) (.inr rfl) (next_over front finding rfl) passes rfl
      | commentOpening =>
        refine next_comment front munch (finding.trans ?_)
        rw [List.length_take_of_le isLongest.within]
      | token | quotation | openQuotation => cases stands

end Lexer

/-- A word is read as one token. -/
theorem tokenize_word {word : String} (worded : TokenRule.word.Matches word.toList) :
    ∃ kind, tokenize word = ([⟨kind, word, ⟨0, byteLength word.toList⟩, false⟩], []) := by
  have plain := TokenRule.plain_of_word worded
  obtain ⟨kind, first⟩ := TokenRule.firstMatch?_word worded
  have found := findingAt_spaced (v := []) plain rfl first
  rw [List.append_nil] at found
  obtain ⟨c, rest, front⟩ := List.exists_cons_of_ne_nil plain.nonempty
  rw [front] at found
  have ahead : (Lexer.ofText word.toList).rest = c :: rest := front
  have reads := Lexer.next_token ahead found (Nat.succ_pos _) rfl
  have passed := Lexer.rest_pass (.ofText word.toList) c rest
    (show 0 < (c :: rest).length from Nat.succ_pos _) (.token kind)
  have ended : ((Lexer.ofText word.toList).pass (.token kind, (c :: rest).length) c rest).settle.rest =
      [] := by
    rw [List.drop_length] at passed
    exact passed
  rw [List.take_length, ← front] at reads
  rw [← front] at ended
  refine ⟨kind, ?_⟩
  rw [tokenize, Lexer.drain_some reads, Lexer.drain_none ended]
  simp [Lexer.settle, Lexer.takeErrors, Lexer.pass, Lexer.ofText, Lexer.record, Finding.error?,
    Lexer.gap?, breaksLine]

/-- A lexer reads by the longest match wherever the text is not irregular, and a text that is a
word is read as one token. -/
theorem maximal_munch :
    (∀ lexer : Lexer, lexer.mode = .normal → lexer.rest ≠ [] → ¬ IsIrregular lexer.rest →
      lexer.Munches) ∧
    ∀ word : String, TokenRule.word.Matches word.toList →
      ∃ kind, tokenize word = ([⟨kind, word, ⟨0, byteLength word.toList⟩, false⟩], []) :=
  ⟨fun _ => Lexer.next_munches, fun _ => tokenize_word⟩

/-- A lexer in front of a hexadecimal fraction with its exponent, behind what has been read of a
source. -/
def Lexer.atHexFloat : Lexer :=
  { Lexer.ofText "x = 0x1.8p3f;".toList with
    offset := 4, rest := "0x1.8p3f;".toList, lastEnd := 3, since := some " 0x1.8p3f;".toList }

theorem maximal_munch_hexFloat :
    (Lexer.atHexFloat.mode = .normal ∧ Lexer.atHexFloat.rest ≠ [] ∧
      ¬ IsIrregular Lexer.atHexFloat.rest ∧ Lexer.atHexFloat.Munches) ∧
    (TokenRule.word.Matches "int2_t".toList ∧
      ∃ kind, tokenize "int2_t" = ([⟨kind, "int2_t", ⟨0, 6⟩, false⟩], [])) := by
  have some : Lexer.atHexFloat.rest ≠ [] := by decide
  have regular : ¬ IsIrregular Lexer.atHexFloat.rest := irregular?_isSome.not.mp (by decide)
  have worded : TokenRule.word.Matches "int2_t".toList := by decide
  exact ⟨⟨rfl, some, regular, maximal_munch.1 _ rfl some regular⟩, worded,
    maximal_munch.2 _ worded⟩

end OpenCLTree

import OpenCLTree.Proofs.Lexical.Laid

/-!
Reading loses nothing in silence. In either mode the tokens of a source, the spaces and comments
between them and the lexemes that are dropped with an error lie end to end and make up the source;
and every other error lies in the literal that it complains about.
-/

namespace OpenCLTree

/-- The tokens of a source as one mode reads them, and its lexical errors in the order of their
offsets. -/
def tokenizeIn (mode : LexMode) (source : String) : List Token × List LexError :=
  let (tokens, lexer) := { Lexer.ofText source.toList with mode }.drain
  (tokens, lexer.takeErrors.1)

theorem tokenizeIn_normal (source : String) : tokenizeIn .normal source = tokenize source :=
  rfl

theorem tokenizeIn_tokens (mode : LexMode) (source : String) :
    (tokenizeIn mode source).1 = tokensIn mode source :=
  rfl

/-- Whether pieces are what one mode reads of a source, from its first character to its last. -/
structure Pieces (mode : LexMode) (source : String) (pieces : List Piece) : Prop where
  laid : Laid 0 pieces
  spelled : spell pieces = source.toList
  tokens : pieces.filterMap Piece.token? = (tokenizeIn mode source).1
  errors : pieces.filterMap Piece.error? = (tokenizeIn mode source).2

theorem tokenizeIn_pieces (mode : LexMode) (source : String) : ∃ pieces, Pieces mode source pieces := by
  have tidy : { Lexer.ofText source.toList with mode }.Tidy := ⟨.nil, List.forall_mem_nil _⟩
  obtain ⟨pieces, reads⟩ := Lexer.drain_laid tidy
  refine ⟨pieces, reads.laid, reads.spelled, reads.tokens, ?_⟩
  have errors := congrArg List.reverse (reads.errors.trans (List.append_nil _))
  rw [List.reverse_reverse] at errors
  exact errors.symm

variable {mode : LexMode} {source : String} {offset : Nat}

/-- Every byte lies in a piece. -/
theorem exists_piece {pieces : List Piece} (within : offset < byteLength (spell pieces)) :
    ∃ front piece back, pieces = front ++ piece :: back ∧ byteLength (spell front) ≤ offset ∧
      offset < byteLength (spell front) + byteLength piece.text := by
  induction pieces generalizing offset with
  | nil => cases within
  | cons piece pieces ih =>
    rw [spell, List.flatMap_cons, Lexer.byteLength_append, ← spell] at within
    rcases Nat.lt_or_ge offset (byteLength piece.text) with here | beyond
    · exact ⟨[], piece, pieces, rfl, Nat.zero_le _, by simpa [spell, byteLength] using here⟩
    · have later : offset - byteLength piece.text < byteLength (spell pieces) := by omega
      obtain ⟨front, other, back, rfl, start, stop⟩ := ih later
      refine ⟨piece :: front, other, back, rfl, ?_, ?_⟩ <;>
        rw [spell, List.flatMap_cons, Lexer.byteLength_append, ← spell] <;> omega

/-- Whether a byte of a text belongs to space or a comment, or to the lexeme of an error that stands
there and drops it. -/
def IsPassedOver (text : List Char) (errors : List LexError) (offset : Nat) : Prop :=
  (∃ front trivia back, text = front ++ (trivia ++ back) ∧ IsTrivia trivia back ∧
    byteLength front ≤ offset ∧ offset < byteLength front + byteLength trivia) ∨
  ∃ error ∈ errors, error.kind.drops = true ∧
    slice? text ⟨error.offset, error.offset + byteLength error.lexeme.toList⟩ =
      some error.lexeme.toList ∧
    error.offset ≤ offset ∧ offset < error.offset + byteLength error.lexeme.toList

/-- A byte that stands in no token is passed over. -/
theorem isPassedOver_of_outside (within : offset < byteLength source.toList)
    (outside : ∀ token ∈ (tokenizeIn mode source).1,
      offset < token.span.start ∨ token.span.stop ≤ offset) :
    IsPassedOver source.toList (tokenizeIn mode source).2 offset := by
  obtain ⟨pieces, laid, spelled, tokens, errors⟩ := tokenizeIn_pieces mode source
  rw [← spelled] at within
  obtain ⟨front, piece, back, rfl, start, stop⟩ := exists_piece within
  have split : source.toList = spell front ++ (piece.text ++ spell back) := by
    rw [← spelled, spell, List.flatMap_append, List.flatMap_cons]
    rfl
  have here := laid.append_right
  rw [Nat.zero_add] at here
  cases here with
  | @token _ token error _ _ span =>
    have member : token ∈ (tokenizeIn mode source).1 := by
      rw [← tokens, List.filterMap_append]
      exact List.mem_append_right _ List.mem_cons_self
    have outside := outside token member
    simp only [span] at outside
    exact absurd stop (by simp only [Piece.text]; omega)
  | trivia trivia => exact .inl ⟨_, _, _, split, trivia, start, stop⟩
  | @dropped _ error _ place _ kind =>
    have member : error ∈ (tokenizeIn mode source).2 := by
      rw [← errors, List.filterMap_append]
      exact List.mem_append_right _ List.mem_cons_self
    have drops : error.kind.drops = true := by
      rcases kind with kind | ⟨kind, _⟩ <;> rw [kind] <;> rfl
    refine .inr ⟨error, member, drops, ?_, place ▸ start, place ▸ stop⟩
    rw [split, place]
    exact slice?_append _ _ _

/-- No byte stands in two tokens. -/
theorem eq_of_overlap {tokens : List Token} {one two : Token}
    (ordered : tokens.Pairwise fun earlier later => earlier.span.stop ≤ later.span.start)
    (first : one ∈ tokens) (second : two ∈ tokens)
    (inFirst : one.span.start ≤ offset ∧ offset < one.span.stop)
    (inSecond : two.span.start ≤ offset ∧ offset < two.span.stop) : one = two := by
  induction ordered with
  | nil => cases first
  | @cons head tail before _ ih =>
    rcases List.mem_cons.mp first with rfl | inTail <;>
      rcases List.mem_cons.mp second with rfl | inTail'
    · rfl
    · have apart := before two inTail'
      omega
    · have apart := before one inTail
      omega
    · exact ih inTail inTail'

/-- The tokens of a source do not overlap, and split no character. What stands outside of them is
space, comments and what is dropped with an error, and with these they make up the source. Every
other error lies in one literal and was found in its text, and no two errors share an offset. -/
theorem tokenizeIn_complete (mode : LexMode) (source : String) :
    (∀ token ∈ (tokenizeIn mode source).1,
      token.span.start < token.span.stop ∧ token.span.IsUsable source.toList) ∧
    (tokenizeIn mode source).1.Pairwise
      (fun earlier later => earlier.span.stop ≤ later.span.start) ∧
    (∀ offset < byteLength source.toList,
      (∀ token ∈ (tokenizeIn mode source).1,
        offset < token.span.start ∨ token.span.stop ≤ offset) →
      IsPassedOver source.toList (tokenizeIn mode source).2 offset) ∧
    (∃ pieces, Pieces mode source pieces) ∧
    (∀ error ∈ (tokenizeIn mode source).2, error.kind.drops = false →
      ∃ token ∈ (tokenizeIn mode source).1, error.IsIn token ∧
        ∀ other ∈ (tokenizeIn mode source).1, other.span.start ≤ error.span.start →
          error.span.stop ≤ other.span.stop → other = token) ∧
    (tokenizeIn mode source).2.Pairwise (fun earlier later => earlier.offset < later.offset) := by
  obtain ⟨pieces, read⟩ := tokenizeIn_pieces mode source
  obtain ⟨ordered, positive⟩ := read.laid.tokens_ordered
  have sorted := read.laid.errors_ordered.1
  rw [read.tokens] at ordered positive
  rw [read.errors] at sorted
  have stands := (Lexer.ofText_stands source.toList)
  have standsIn : { Lexer.ofText source.toList with mode }.Stands source.toList :=
    ⟨stands.source, stands.rest, stands.since, stands.errors⟩
  have cut := (Lexer.drain_stands standsIn).2
  refine ⟨fun token member => ⟨(positive token member).2, ?_⟩, ordered,
    fun _ => isPassedOver_of_outside, ⟨pieces, read⟩, fun error member kept => ?_, sorted⟩
  · exact Span.isUsable_of_slice? (cut token member)
  · rw [← read.errors] at member
    obtain ⟨token, listed, isIn⟩ := read.laid.error_isIn member kept
    rw [read.tokens] at listed
    refine ⟨token, listed, isIn, fun other among start stop => ?_⟩
    have nonempty := isIn.nonempty
    exact eq_of_overlap ordered among listed ⟨start, by omega⟩
      ⟨isIn.start, Nat.lt_of_lt_of_le nonempty isIn.stop⟩

end OpenCLTree

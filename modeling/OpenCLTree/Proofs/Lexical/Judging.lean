import OpenCLTree.Proofs.Lexical.Munch

namespace OpenCLTree

open Pattern

/-- Whether a piece of a text is nothing but space or a comment, where `after` follows it. -/
inductive IsTrivia : List Char → List Char → Prop
  | spaces {text after : List Char} : text ≠ [] → (∀ c ∈ text, isSpace c = true) →
      IsTrivia text after
  /-- A backslash at the end of a line. -/
  | continuation {text after : List Char} : text = ['\\', '\n'] ∨ text = ['\\', '\r', '\n'] →
      IsTrivia text after
  /-- A comment to the end of the line, or of the whole text. -/
  | lineComment {body after : List Char} : '\n' ∉ body → (∀ c ∈ after.head?, c = '\n') →
      IsTrivia ('/' :: '/' :: body) after
  /-- A comment through the first mark that ends it. -/
  | blockComment {body after : List Char} : ¬ ['*', '/'] <:+: body ++ ['*'] →
      IsTrivia (['/', '*'] ++ body ++ ['*', '/']) after

theorem IsTrivia.nonempty {text after : List Char} (trivia : IsTrivia text after) : text ≠ [] := by
  cases trivia with
  | spaces some => exact some
  | continuation broken => rcases broken with rfl | rfl <;> simp
  | lineComment | blockComment => simp

def TokenKind.isLiteral : TokenKind → Bool
  | .string | .character => true
  | _ => false

/-- Whether quotes stand around literals. -/
def Recognized.quotes : Recognized → Bool
  | .quotation kind | .openQuotation kind => kind.isLiteral
  | _ => true

/-- Whether what an error complains about stands for no token. -/
def LexErrorKind.drops : LexErrorKind → Bool
  | .unrecognizedCharacter | .unterminatedComment => true
  | _ => false

/-- Whether a finding says what a piece of a text is, where `after` follows it. -/
inductive Finding.Suits : Finding → List Char → List Char → Prop
  | trivia {lexeme after : List Char} : IsTrivia lexeme after → Suits .trivia lexeme after
  | token {kind : TokenKind} {lexeme after : List Char} : Suits (.token kind) lexeme after
  | unrecognized {lexeme after : List Char} :
      Suits (.malformed .unrecognizedCharacter none) lexeme after
  | openComment {lexeme : List Char} : Suits (.malformed .unterminatedComment none) lexeme []
  | literal {error : LexErrorKind} {kind : TokenKind} {lexeme after : List Char} :
      error.drops = false → kind.isLiteral = true →
      Suits (.malformed error (some kind)) lexeme after

variable {text lexeme after : List Char} {found : Recognized} {n : Nat}

namespace TokenRule

/-- What is passed over as a blank is space. -/
theorem filter_blank : all.filter (·.recognized = .blank) =
    [⟨.blank, blanks⟩, ⟨.blank, continuation⟩] :=
  rfl

theorem filter_lineComment : all.filter (·.recognized = .lineComment) =
    [⟨.lineComment, lineComment⟩] :=
  rfl

theorem matches_continuation (matched : continuation.Matches text) :
    text = ['\\', '\n'] ∨ text = ['\\', '\r', '\n'] := by
  obtain ⟨_, _, rfl, mark, others⟩ := matches_seq.mp matched
  obtain ⟨_, _, rfl, carried, fed⟩ := matches_seq.mp others
  rw [matches_char.mp mark, matches_char.mp fed]
  rcases matches_either.mp carried with absent | present
  · rw [matches_empty.mp absent]
    exact .inl rfl
  · rw [matches_char.mp present]
    exact .inr rfl

theorem matches_lineComment : lineComment.Matches text ↔
    ∃ body, text = '/' :: '/' :: body ∧ '\n' ∉ body := by
  constructor
  · intro matched
    obtain ⟨_, body, rfl, opening, others⟩ := matches_seq.mp matched
    rw [matches_text.mp opening]
    refine ⟨body, rfl, fun feed => ?_⟩
    cases matches_many_one.mp others '\n' feed
  · rintro ⟨body, rfl, line⟩
    refine matches_seq.mpr ⟨['/', '/'], body, rfl, matches_text.mpr rfl, ?_⟩
    refine matches_many_one.mpr fun c member => bne_iff_ne.mpr ?_
    rintro rfl
    exact line member

theorem all_quotes : ∀ rule ∈ all, rule.recognized.quotes = true := by
  decide +kernel

end TokenRule

theorem Munch.isTrivia_blank (munch : Munch (lexeme ++ after) lexeme .blank) : IsTrivia lexeme after := by
  obtain ⟨rule, member, blank, matched⟩ := munch.matched
  have listed : rule ∈ TokenRule.all.filter (·.recognized = .blank) :=
    List.mem_filter.mpr ⟨member, decide_eq_true blank⟩
  rw [TokenRule.filter_blank, List.mem_cons, List.mem_singleton] at listed
  rcases listed with rfl | rfl
  · obtain ⟨c, rest, rfl⟩ :=
      List.exists_cons_of_ne_nil (TokenRule.ne_nil_of_matches matched rfl)
    exact .spaces (List.cons_ne_nil c rest) (TokenRule.matches_blanks.mp matched)
  · exact .continuation (TokenRule.matches_continuation matched)

theorem Munch.isTrivia_lineComment (munch : Munch (lexeme ++ after) lexeme .lineComment) :
    IsTrivia lexeme after := by
  obtain ⟨rule, member, line, matched⟩ := munch.matched
  have listed : rule ∈ TokenRule.all.filter (·.recognized = .lineComment) :=
    List.mem_filter.mpr ⟨member, decide_eq_true line⟩
  rw [TokenRule.filter_lineComment, List.mem_singleton] at listed
  subst listed
  obtain ⟨body, rfl, unbroken⟩ := TokenRule.matches_lineComment.mp matched
  refine .lineComment unbroken fun c first => ?_
  cases after with
  | nil => cases first
  | cons d rest =>
    obtain rfl : d = c := Option.some.inj first
    -- Otherwise the comment would go on with that character.
    by_contra other
    have longer : TokenRule.lineComment.Matches ('/' :: '/' :: (body ++ [d])) := by
      refine TokenRule.matches_lineComment.mpr ⟨_, rfl, ?_⟩
      simp [unbroken, Ne.symm other]
    have within := munch.longest _ member _ ⟨rest, by simp⟩ longer
    simp only [List.length_cons, List.length_append, List.length_nil] at within
    omega

/-- What is judged of a lexeme suits it. -/
theorem judge_suits (munch : Munch text lexeme found) :
    (judge found lexeme.length text).1.Suits
      (text.take (judge found lexeme.length text).2)
      (text.drop (judge found lexeme.length text).2) := by
  obtain ⟨after, rfl⟩ := munch.leads
  have quotes : found.quotes = true := by
    obtain ⟨rule, member, rfl, _⟩ := munch.matched
    exact TokenRule.all_quotes rule member
  cases found with
  | blank =>
    rw [judge, List.take_left' rfl, List.drop_left' rfl]
    exact .trivia munch.isTrivia_blank
  | lineComment =>
    rw [judge, List.take_left' rfl, List.drop_left' rfl]
    exact .trivia munch.isTrivia_lineComment
  | commentOpening =>
    obtain rfl := TokenRule.eq_of_commentOpening munch
    rw [judge, List.drop_left' rfl]
    cases closing : commentExtent? after with
    | none =>
      dsimp only
      rw [List.drop_length]
      exact .openComment
    | some extent =>
      obtain ⟨body, tail, rfl, rfl, first⟩ := commentExtent?_eq_some closing
      have piece : ['/', '*'].length + (body.length + 2) =
          (['/', '*'] ++ body ++ ['*', '/']).length := by
        simp
        omega
      dsimp only
      rw [piece, show ['/', '*'] ++ (body ++ ['*', '/'] ++ tail) =
        ['/', '*'] ++ body ++ ['*', '/'] ++ tail by simp, List.take_left' rfl]
      exact .trivia (.blockComment first)
  | token kind => exact .token
  | quotation kind =>
    rw [judge]
    split
    · exact .literal rfl quotes
    · exact .token
  | openQuotation kind =>
    rw [judge]
    refine .literal ?_ quotes
    split <;> rfl

theorem judge_positive (positive : 0 < n) (some : text ≠ []) : 0 < (judge found n text).2 := by
  unfold judge
  split
  · exact positive
  · exact positive
  · split
    · exact Nat.add_pos_left positive _
    · exact List.length_pos_iff.mpr some
  · exact positive
  · split <;> exact positive
  · exact positive

theorem irregular?_suits {finding : Finding × Nat} (irregular : irregular? text = some finding) :
    0 < finding.2 ∧ ∀ lexeme after, finding.1.Suits lexeme after := by
  rcases irregular?_cases irregular with ⟨_, _, rfl⟩ | ⟨_, _, rfl⟩ | ⟨broken, positive⟩
  · exact ⟨Nat.add_pos_left Nat.one_pos _, fun _ _ => .token⟩
  · exact ⟨Nat.two_pos, fun _ _ => .token⟩
  · exact ⟨positive, fun _ _ => broken ▸ .unrecognized⟩

theorem findingAt_suits (some : text ≠ []) : 0 < (findingAt text).2 ∧
    (findingAt text).1.Suits (text.take (findingAt text).2) (text.drop (findingAt text).2) := by
  rcases findingAt_eq text with irregular | ⟨found, n, longest, same⟩ | same
  · obtain ⟨positive, suits⟩ := irregular?_suits irregular
    exact ⟨positive, suits _ _⟩
  · have isLongest := TokenRule.longest?_eq_some.mp longest
    have suits := judge_suits (TokenRule.munch_of_longest? longest)
    rw [List.length_take_of_le isLongest.within] at suits
    rw [same]
    exact ⟨judge_positive isLongest.positive some, suits⟩
  · rw [same]
    exact ⟨Nat.one_pos, .unrecognized⟩

/-- What is found at the head of a text suits the characters that it takes. -/
theorem findingIn_suits (mode : LexMode) (some : text ≠ []) : 0 < (findingIn mode text).2 ∧
    (findingIn mode text).1.Suits
      (text.take (findingIn mode text).2) (text.drop (findingIn mode text).2) := by
  have plain := findingAt_suits some
  unfold findingIn
  dsimp only
  split
  · split
    · exact ⟨Nat.add_pos_left plain.1 _, .token⟩
    · exact plain
  · exact plain

end OpenCLTree

import OpenCLTree.Proofs.Lexical.Irregular
import OpenCLTree.Proofs.Lexical.TokenRule
import OpenCLTree.Lexical.Lexer

namespace OpenCLTree

/-- The kind of token that something recognized stands for. -/
def Recognized.tokenKind? : Recognized → Option TokenKind
  | .token kind | .quotation kind | .openQuotation kind => some kind
  | _ => none

namespace TokenRule

theorem tokenKind?_ne_swizzle : ∀ rule ∈ all, rule.recognized.tokenKind? ≠ some .swizzle := by
  decide +kernel

theorem filter_dot :
    all.filter (·.recognized.tokenKind? = some (.punct .dot)) =
      [⟨.token (.punct .dot), .text ['.']⟩] :=
  rfl

end TokenRule

theorem tokenKind?_judge (recognized : Recognized) (count : Nat) (text : List Char) :
    (judge recognized count text).1.tokenKind? = none ∨
      (judge recognized count text).1.tokenKind? = recognized.tokenKind? ∧
        (judge recognized count text).2 = count := by
  unfold judge
  split
  · exact .inl rfl
  · exact .inl rfl
  · split
    · exact .inl rfl
    · exact .inl rfl
  · exact .inr ⟨rfl, rfl⟩
  · split
    · exact .inr ⟨rfl, rfl⟩
    · exact .inr ⟨rfl, rfl⟩
  · exact .inr ⟨rfl, rfl⟩

theorem tokenKind?_irregular? {text : List Char} {found : Finding × Nat}
    (irregular : irregular? text = some found) :
    found.1.tokenKind? = none ∨ found.1.tokenKind? = some (.punct .hash) ∨
      found.1.tokenKind? = some .identifier := by
  rcases irregular?_cases irregular with ⟨_, _, rfl⟩ | ⟨_, _, rfl⟩ | ⟨broken, _⟩
  · exact .inr (.inl rfl)
  · exact .inr (.inr rfl)
  · rw [broken]
    exact .inl rfl

/-- A text that is read as a token by no special treatment is read by the longest rule. -/
theorem findingAt_cases {text : List Char} {kind : TokenKind}
    (found : (findingAt text).1.tokenKind? = some kind) :
    kind = .punct .hash ∨ kind = .identifier ∨
      ∃ rule ∈ TokenRule.all, rule.recognized.tokenKind? = some kind ∧
        rule.pattern.Matches (text.take (findingAt text).2) := by
  rcases findingAt_eq text with irregular | ⟨recognized, count, longest, same⟩ | same
  · rcases tokenKind?_irregular? irregular with none | hash | name
    · cases none.symm.trans found
    · exact .inl (Option.some.inj (found.symm.trans hash))
    · exact .inr (.inl (Option.some.inj (found.symm.trans name)))
  · rw [same] at found ⊢
    refine .inr (.inr ?_)
    rcases tokenKind?_judge recognized count text with none | ⟨kept, counted⟩
    · cases none.symm.trans found
    · obtain ⟨rule, member, rfl, matched⟩ :=
        TokenRule.mem_of_firstMatch? (TokenRule.longest?_eq_some.mp longest).first
      exact ⟨rule, member, kept.symm.trans found, by rwa [counted]⟩
  · rw [same] at found
    cases found

theorem findingAt_ne_swizzle (text : List Char) :
    (findingAt text).1.tokenKind? ≠ some .swizzle := by
  intro found
  rcases findingAt_cases found with hash | name | ⟨rule, member, recognized, _⟩
  · cases hash
  · cases name
  · exact TokenRule.tokenKind?_ne_swizzle rule member recognized

theorem findingIn_normal (text : List Char) : findingIn .normal text = findingAt text :=
  rfl

theorem take_of_findingAt_dot {text : List Char}
    (found : (findingAt text).1.tokenKind? = some (.punct .dot)) :
    text.take (findingAt text).2 = ['.'] := by
  rcases findingAt_cases found with hash | name | ⟨rule, member, recognized, matched⟩
  · cases hash
  · cases name
  · have fixed : rule ∈ TokenRule.all.filter (·.recognized.tokenKind? = some (.punct .dot)) := by
      simpa using ⟨member, recognized⟩
    rw [TokenRule.filter_dot, List.mem_singleton] at fixed
    rw [fixed] at matched
    exact Pattern.matches_text.mp matched

/-- A token that stands for itself: a dot, or none that takes a dot along. -/
structure Token.IsSimple (token : Token) : Prop where
  kind : token.kind ≠ .swizzle
  dot : token.kind = .punct .dot → token.text = "." ∧ token.span.stop = token.span.start + 1

/-- Tokens in the order of the text after `start`, up to `size`. Where one starts right at the
end of the one before it, no line ends between them. -/
inductive Token.Ordered (size : Nat) : Nat → List Token → Prop
  | nil (start : Nat) : Ordered size start []
  | cons {start : Nat} {token : Token} {rest : List Token} :
      start ≤ token.span.start → token.span.start < token.span.stop → token.span.stop ≤ size →
      (token.span.start = start → token.newlineBefore = false) →
      Ordered size token.span.stop rest → Ordered size start (token :: rest)

namespace Token.Ordered

variable {size start i j : Nat} {tokens : List Token} {first second : Token}

theorem start_le (ordered : Ordered size start tokens) :
    ∀ token ∈ tokens, start ≤ token.span.start := by
  induction ordered with
  | nil => simp
  | cons after nonempty _ _ _ ih =>
    refine List.forall_mem_cons.mpr ⟨after, fun token member => ?_⟩
    have := ih token member
    omega

theorem pairwise (ordered : Ordered size start tokens) :
    tokens.Pairwise fun earlier later => earlier.span.stop ≤ later.span.start := by
  induction ordered with
  | nil => exact .nil
  | cons _ _ _ _ later ih => exact List.pairwise_cons.mpr ⟨later.start_le, ih⟩

theorem nonempty (ordered : Ordered size start tokens) :
    ∀ token ∈ tokens, token.span.start < token.span.stop ∧ token.span.stop ≤ size := by
  induction ordered with
  | nil => simp
  | cons _ nonempty within _ _ ih => exact List.forall_mem_cons.mpr ⟨⟨nonempty, within⟩, ih⟩

/-- No line ends between a token and one that starts where it ends. -/
theorem newlineBefore_eq_false (ordered : Ordered size start tokens)
    (here : tokens[i]? = some first) (next : tokens[i + 1]? = some second)
    (adjacent : second.span.start = first.span.stop) : second.newlineBefore = false := by
  induction ordered generalizing i with
  | nil => cases here
  | cons _ _ _ _ after ih =>
    cases i with
    | succ i => exact ih here next
    | zero =>
      cases here
      cases after with
      | nil => cases next
      | cons _ _ _ newline _ =>
        cases next
        exact newline adjacent

end Token.Ordered

namespace Lexer

theorem byteLength_append (front back : List Char) :
    byteLength (front ++ back) = byteLength front + byteLength back := by
  induction front with
  | nil => simp [byteLength]
  | cons c rest ih => simp only [List.cons_append, byteLength, ih, Nat.add_assoc]

theorem byteLength_pos (c : Char) (rest : List Char) : 0 < byteLength (c :: rest) := by
  rw [byteLength]
  have := c.utf8Size_pos
  omega

/-- A lexer in the middle of a text of `size` bytes. -/
structure Within (size : Nat) (lexer : Lexer) : Prop where
  mode : lexer.mode = .normal
  lastEnd : lexer.lastEnd ≤ lexer.offset
  offset : lexer.offset + byteLength lexer.rest = size

/-- What reading a token from a lexer has to do with the token and the lexer after it. -/
structure Read (size : Nat) (lexer : Lexer) (token : Token) (after : Lexer) : Prop where
  within : after.Within size
  simple : token.IsSimple
  start : lexer.offset ≤ token.span.start
  nonempty : token.span.start < token.span.stop
  lastEnd : after.lastEnd = token.span.stop
  newline : token.span.start = lexer.lastEnd → token.newlineBefore = false

theorem gap?_breaks (lexer : Lexer) {start : Nat} (here : start = lexer.lastEnd) :
    (lexer.gap? start).any breaksLine = false := by
  simp [gap?, here, breaksLine]

/-- The lexeme read at some text, and what is left of the text after it. -/
theorem byteLength_split (c : Char) (rest : List Char) (count : Nat) :
    byteLength (c :: rest.take count) + byteLength (rest.drop count) = byteLength (c :: rest) := by
  rw [← byteLength_append, List.cons_append, List.take_append_drop]

/-- The token that stands for a lexeme is simple. -/
theorem isSimple_token {kind : TokenKind} {c : Char} {rest : List Char} {start : Nat}
    {newlineBefore : Bool} (found : (findingAt (c :: rest)).1.tokenKind? = some kind) :
    (⟨kind, String.ofList (c :: rest.take ((findingAt (c :: rest)).2 - 1)),
      ⟨start, start + byteLength (c :: rest.take ((findingAt (c :: rest)).2 - 1))⟩,
      newlineBefore⟩ : Token).IsSimple where
  kind same := by
    cases same
    exact findingAt_ne_swizzle _ found
  dot same := by
    cases same
    have lexeme := take_of_findingAt_dot found
    cases count : (findingAt (c :: rest)).2 with
    | zero => simp [count] at lexeme
    | succ count =>
      rw [count, List.take_succ_cons] at lexeme
      rw [Nat.add_sub_cancel, lexeme]
      exact ⟨rfl, rfl⟩

theorem next_read {size : Nat} {lexer after : Lexer} {token : Token} (within : lexer.Within size)
    (read : lexer.next = (some token, after)) : Read size lexer token after := by
  fun_induction next lexer generalizing after with
  | case1 => simp at read
  | case2 =>
    rename_i lexer c rest text found lexeme start stop _ _ ih
    have fits : lexer.offset + byteLength lexeme +
        byteLength (rest.drop (found.2 - 1)) = size := by
      rw [Nat.add_assoc, byteLength_split, ← text]
      exact within.offset
    have after := ih ⟨within.mode, Nat.le_add_right_of_le within.lastEnd, fits⟩ read
    exact { after with start := Nat.le_of_add_right_le after.start }
  | case3 =>
    rename_i lexer c rest text found lexeme start stop _ kind atKind
    obtain ⟨sameToken, rfl⟩ := Prod.mk.inj read
    obtain rfl := Option.some.inj sameToken
    have fits : lexer.offset + byteLength lexeme +
        byteLength (rest.drop (found.2 - 1)) = size := by
      rw [Nat.add_assoc, byteLength_split, ← text]
      exact within.offset
    have normal : found = findingAt (c :: rest) := by
      simp only [found, within.mode, findingIn]
    refine ⟨⟨within.mode, Nat.le_refl _, fits⟩, ?_, Nat.le_refl _, ?_, rfl, lexer.gap?_breaks⟩
    · rw [normal] at atKind
      simp only [stop, lexeme, normal]
      exact isSimple_token atKind
    · exact Nat.lt_add_of_pos_right (byteLength_pos c _)

/-- The tokens that remain, one read at a time. -/
theorem drain_eq (lexer : Lexer) :
    lexer.drain = match lexer.next with
      | (none, after) => ([], after)
      | (some token, after) => (token :: after.drain.1, after.drain.2) := by
  rw [drain]
  split
  · rename_i read
    rw [read]
  · rename_i read
    rw [read]

theorem drain_some {lexer after : Lexer} {token : Token} (read : lexer.next = (some token, after)) :
    lexer.drain = (token :: after.drain.1, after.drain.2) := by
  rw [drain_eq, read]

theorem next_none {lexer : Lexer} (ended : lexer.rest = []) : lexer.next = (none, lexer) := by
  rw [next]
  split
  · rfl
  · rename_i here
    cases here.symm.trans ended

theorem drain_none {lexer : Lexer} (ended : lexer.rest = []) : lexer.drain = ([], lexer) := by
  rw [drain_eq, next_none ended]

/-- What a lexer reads up to the end of its text. -/
theorem drain_ordered {size : Nat} {lexer : Lexer} (within : lexer.Within size) :
    Token.Ordered size lexer.lastEnd lexer.drain.1 ∧ ∀ token ∈ lexer.drain.1, token.IsSimple := by
  fun_induction drain lexer with
  | case1 => exact ⟨.nil _, by simp⟩
  | case2 lexer token after read tokens last drained ih =>
    have step := next_read within read
    rw [drained] at ih
    obtain ⟨ordered, simple⟩ := ih step.within
    refine ⟨.cons ?_ step.nonempty ?_ step.newline (step.lastEnd ▸ ordered), ?_⟩
    · exact Nat.le_trans within.lastEnd step.start
    · have atMost := step.within.lastEnd
      have fits := step.within.offset
      rw [step.lastEnd] at atMost
      omega
    · exact List.forall_mem_cons.mpr ⟨step.simple, simple⟩

theorem ofText_within (text : List Char) : (ofText text).Within (byteLength text) :=
  ⟨rfl, Nat.le_refl 0, Nat.zero_add _⟩

end Lexer

theorem tokenize_ordered (source : String) :
    Token.Ordered (byteLength source.toList) 0 (tokenize source).1 :=
  (Lexer.drain_ordered (Lexer.ofText_within source.toList)).1

theorem tokenize_simple (source : String) : ∀ token ∈ (tokenize source).1, token.IsSimple :=
  (Lexer.drain_ordered (Lexer.ofText_within source.toList)).2

end OpenCLTree

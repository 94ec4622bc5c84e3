import OpenCLTree.Proofs.Lexical.Judging
import OpenCLTree.Proofs.Lexical.Passes
import OpenCLTree.Proofs.Lexical.Pieces

namespace OpenCLTree

/-- Whether an error complains about a literal token, and lies in it. -/
structure LexError.IsIn (error : LexError) (token : Token) : Prop where
  literal : token.kind.isLiteral = true
  kind : error.kind.drops = false
  lexeme : error.lexeme = token.text
  nonempty : error.span.start < error.span.stop
  start : token.span.start ≤ error.span.start
  stop : error.span.stop ≤ token.span.stop

/-- A piece of a source: a token, with an error in it perhaps; space or a comment; or what is
dropped with an error. -/
inductive Piece
  | token (token : Token) (error : Option LexError)
  | trivia (text : List Char)
  | dropped (error : LexError)

namespace Piece

def text : Piece → List Char
  | .token leaf _ => leaf.text.toList
  | .trivia space => space
  | .dropped error => error.lexeme.toList

def token? : Piece → Option Token
  | .token leaf _ => some leaf
  | _ => none

def error? : Piece → Option LexError
  | .token _ error => error
  | .trivia _ => none
  | .dropped error => some error

end Piece

/-- The text that pieces make up together. -/
def spell (pieces : List Piece) : List Char :=
  pieces.flatMap Piece.text

/-- Whether pieces lie end to end from an offset on, each at its place. -/
inductive Laid : Nat → List Piece → Prop
  | nil (offset : Nat) : Laid offset []
  | token {offset : Nat} {token : Token} {error : Option LexError} {pieces : List Piece} :
      token.text.toList ≠ [] → token.span = ⟨offset, offset + byteLength token.text.toList⟩ →
      (∀ found ∈ error, found.IsIn token) → Laid token.span.stop pieces →
      Laid offset (.token token error :: pieces)
  | trivia {offset : Nat} {text : List Char} {pieces : List Piece} :
      IsTrivia text (spell pieces) → Laid (offset + byteLength text) pieces →
      Laid offset (.trivia text :: pieces)
  | dropped {offset : Nat} {error : LexError} {pieces : List Piece} :
      error.offset = offset → error.lexeme.toList ≠ [] →
      error.kind = .unrecognizedCharacter ∨
        error.kind = .unterminatedComment ∧ spell pieces = [] →
      Laid (offset + byteLength error.lexeme.toList) pieces →
      Laid offset (.dropped error :: pieces)

namespace Laid

variable {offset : Nat} {piece : Piece} {pieces front back : List Piece}

/-- Every piece begins where those in front of it end. -/
theorem tail (laid : Laid offset (piece :: pieces)) : Laid (offset + byteLength piece.text) pieces := by
  cases laid with
  | token _ span _ rest => rwa [span] at rest
  | trivia _ rest => exact rest
  | dropped _ _ _ rest => exact rest

theorem nonempty (laid : Laid offset (piece :: pieces)) : piece.text ≠ [] := by
  cases laid with
  | token some => exact some
  | trivia trivia => exact trivia.nonempty
  | dropped _ some => exact some

theorem append_right (laid : Laid offset (front ++ back)) :
    Laid (offset + byteLength (spell front)) back := by
  induction front generalizing offset with
  | nil => exact laid
  | cons piece front ih =>
    have rest := ih laid.tail
    rwa [Nat.add_assoc, ← Lexer.byteLength_append] at rest

/-- A token is a piece of its own. -/
theorem token?_span {token : Token} (laid : Laid offset (piece :: pieces))
    (stands : piece.token? = some token) :
    token.span = ⟨offset, offset + byteLength piece.text⟩ ∧ token.span.start < token.span.stop := by
  cases laid with
  | token some span =>
    cases stands
    rw [span]
    exact ⟨rfl, Nat.lt_add_of_pos_right (Nat.pos_of_ne_zero (mt byteLength_eq_zero.mp some))⟩
  | trivia | dropped => cases stands

/-- An error lies in its piece. -/
theorem error?_within {error : LexError} (laid : Laid offset (piece :: pieces))
    (complains : piece.error? = some error) :
    offset ≤ error.offset ∧ error.offset < offset + byteLength piece.text := by
  cases laid with
  | token some span inside =>
    have isIn := inside error complains
    have start := isIn.start
    have stop := isIn.stop
    have positive := isIn.nonempty
    rw [span] at start stop
    exact ⟨start, Nat.lt_of_lt_of_le positive stop⟩
  | trivia => cases complains
  | dropped place some =>
    cases complains
    rw [← place]
    exact ⟨Nat.le_refl _, Nat.lt_add_of_pos_right (Nat.pos_of_ne_zero (mt byteLength_eq_zero.mp some))⟩

/-- The tokens come one after another. -/
theorem tokens_ordered (laid : Laid offset pieces) :
    (pieces.filterMap Piece.token?).Pairwise (fun earlier later => earlier.span.stop ≤ later.span.start) ∧
      ∀ token ∈ pieces.filterMap Piece.token?,
        offset ≤ token.span.start ∧ token.span.start < token.span.stop := by
  induction pieces generalizing offset with
  | nil => exact ⟨.nil, List.forall_mem_nil _⟩
  | cons piece pieces ih =>
    obtain ⟨ordered, after⟩ := ih laid.tail
    cases stands : piece.token? with
    | none =>
      rw [List.filterMap_cons_none stands]
      exact ⟨ordered, fun token member =>
        ⟨Nat.le_trans (Nat.le_add_right _ _) (after token member).1, (after token member).2⟩⟩
    | some token =>
      obtain ⟨span, positive⟩ := laid.token?_span stands
      rw [List.filterMap_cons_some stands]
      refine ⟨List.pairwise_cons.mpr ⟨fun later member => ?_, ordered⟩,
        List.forall_mem_cons.mpr ⟨⟨by rw [span], positive⟩, fun later member => ?_⟩⟩
      · rw [span]
        exact (after later member).1
      · exact ⟨Nat.le_trans (Nat.le_add_right _ _) (after later member).1, (after later member).2⟩

/-- The errors come one after another. -/
theorem errors_ordered (laid : Laid offset pieces) :
    (pieces.filterMap Piece.error?).Pairwise (fun earlier later => earlier.offset < later.offset) ∧
      ∀ error ∈ pieces.filterMap Piece.error?, offset ≤ error.offset := by
  induction pieces generalizing offset with
  | nil => exact ⟨.nil, List.forall_mem_nil _⟩
  | cons piece pieces ih =>
    obtain ⟨ordered, after⟩ := ih laid.tail
    have later (error : LexError) (member : error ∈ pieces.filterMap Piece.error?) :
        offset ≤ error.offset :=
      Nat.le_trans (Nat.le_add_right _ _) (after error member)
    cases complains : piece.error? with
    | none =>
      rw [List.filterMap_cons_none complains]
      exact ⟨ordered, later⟩
    | some error =>
      obtain ⟨start, stop⟩ := laid.error?_within complains
      rw [List.filterMap_cons_some complains]
      refine ⟨List.pairwise_cons.mpr ⟨fun other member => ?_, ordered⟩,
        List.forall_mem_cons.mpr ⟨start, later⟩⟩
      exact Nat.lt_of_lt_of_le stop (after other member)

/-- An error that drops nothing lies in a token. -/
theorem error_isIn {error : LexError} (laid : Laid offset pieces)
    (member : error ∈ pieces.filterMap Piece.error?) (kept : error.kind.drops = false) :
    ∃ token ∈ pieces.filterMap Piece.token?, error.IsIn token := by
  induction pieces generalizing offset with
  | nil => cases member
  | cons piece pieces ih =>
    have later (member : error ∈ pieces.filterMap Piece.error?) :
        ∃ token ∈ (piece :: pieces).filterMap Piece.token?, error.IsIn token := by
      obtain ⟨token, listed, isIn⟩ := ih laid.tail member
      refine ⟨token, ?_, isIn⟩
      rw [List.filterMap_cons]
      split
      · exact listed
      · exact List.mem_cons_of_mem _ listed
    cases laid with
    | @token _ token complaint _ _ _ inside =>
      rw [List.filterMap_cons] at member
      cases complaint with
      | none => exact later member
      | some found =>
        rcases List.mem_cons.mp member with rfl | member
        · exact ⟨token, List.mem_cons_self, inside error rfl⟩
        · exact later member
    | trivia => exact later member
    | dropped _ _ kind =>
      rcases List.mem_cons.mp member with rfl | member
      · rcases kind with kind | ⟨kind, _⟩ <;> rw [kind] at kept <;> cases kept
      · exact later member

end Laid

/-- An error about a lexeme lies in it. -/
theorem Finding.errorAt?_span {finding : Finding} {offset : Nat} {lexeme : List Char}
    {error : LexError} (nonempty : lexeme ≠ [])
    (here : finding.errorAt? offset lexeme = some error)
    (escapes : ∀ escape inside, finding.error? = some (.invalidEscape escape inside) →
      findInvalidEscape lexeme = some (inside, escape.toList)) :
    error.span.start < error.span.stop ∧ offset ≤ error.span.start ∧
      error.span.stop ≤ offset + byteLength lexeme := by
  obtain ⟨kind, complains, rfl⟩ := Option.map_eq_some_iff.mp here
  have first : 0 < byteLength (lexeme.take 1) ∧ byteLength (lexeme.take 1) ≤ byteLength lexeme := by
    have whole := Lexer.byteLength_append (lexeme.take 1) (lexeme.drop 1)
    rw [List.take_append_drop] at whole
    obtain ⟨c, rest, rfl⟩ := List.exists_cons_of_ne_nil nonempty
    exact ⟨Lexer.byteLength_pos c [], by omega⟩
  cases kind with
  | invalidEscape escape inside =>
    have some := invalidEscapeFrom_nonempty (escapes escape inside complains)
    obtain ⟨front, back, rfl, length⟩ := invalidEscapeFrom_split (escapes escape inside complains)
    rw [Lexer.byteLength_append, Lexer.byteLength_append]
    simp only [LexError.span]
    omega
  | _ =>
    simp only [LexError.span, String.toList_ofList]
    omega

section

variable {offset : Nat} {finding : Finding} {lexeme after : List Char} {pieces : List Piece}

/-- What stands for no token can be laid in front of what follows it. -/
theorem Finding.Suits.laid_over (suits : finding.Suits lexeme after) (nonempty : lexeme ≠ [])
    (skipped : finding.tokenKind? = none) (follows : spell pieces = after)
    (laid : Laid (offset + byteLength lexeme) pieces) :
    ∃ piece : Piece, Laid offset (piece :: pieces) ∧ piece.text = lexeme ∧ piece.token? = none ∧
      piece.error? = finding.errorAt? offset lexeme := by
  have text : (String.ofList lexeme).toList = lexeme := String.toList_ofList
  cases suits with
  | trivia trivia => exact ⟨.trivia lexeme, .trivia (follows ▸ trivia) laid, rfl, rfl, rfl⟩
  | unrecognized =>
    refine ⟨.dropped ⟨.unrecognizedCharacter, offset, String.ofList lexeme⟩, ?_, text, rfl, rfl⟩
    exact .dropped rfl (by rwa [text]) (.inl rfl) (by rwa [text])
  | openComment =>
    refine ⟨.dropped ⟨.unterminatedComment, offset, String.ofList lexeme⟩, ?_, text, rfl, rfl⟩
    exact .dropped rfl (by rwa [text]) (.inr ⟨rfl, follows⟩) (by rwa [text])
  | token | literal => cases skipped

/-- What stands for a token can be laid in front of what follows it. -/
theorem Finding.Suits.laid_token (suits : finding.Suits lexeme after) (token : Token)
    (nonempty : lexeme ≠ []) (taken : finding.tokenKind? = some token.kind)
    (text : token.text = String.ofList lexeme)
    (span : token.span = ⟨offset, offset + byteLength lexeme⟩)
    (escapes : ∀ escape inside, finding.error? = some (.invalidEscape escape inside) →
      findInvalidEscape lexeme = some (inside, escape.toList))
    (laid : Laid (offset + byteLength lexeme) pieces) :
    Laid offset (.token token (finding.errorAt? offset lexeme) :: pieces) := by
  have spelled : token.text.toList = lexeme := by rw [text, String.toList_ofList]
  refine .token (by rwa [spelled]) (by rw [span, spelled]) (fun error here => ?_) (by rwa [span])
  obtain ⟨positive, start, stop⟩ := Finding.errorAt?_span nonempty here escapes
  cases suits with
  | literal kept isLiteral =>
    cases taken
    cases here
    exact ⟨isLiteral, kept, text.symm, positive, by rwa [span], by rwa [span]⟩
  | trivia | token => cases here
  | unrecognized | openComment => cases taken

end

namespace Lexer

variable {lexer : Lexer}

theorem Tidy.settle (tidy : lexer.Tidy) : lexer.settle.Tidy :=
  ⟨tidy.sorted, tidy.behind⟩

/-- Passing a piece adds its error, if there is one, in front of those that there are. -/
theorem Tidy.errors_pass {c : Char} {rest : List Char} {finding : Finding} {n : Nat}
    (tidy : lexer.Tidy) (found : findingIn lexer.mode (c :: rest) = (finding, n))
    (positive : 0 < n) :
    (lexer.pass (finding, n) c rest).Tidy ∧ (lexer.pass (finding, n) c rest).errors =
      (finding.errorAt? lexer.offset ((c :: rest).take n)).toList ++ lexer.errors := by
  have passed := (tidy.pass lexer.mode c rest).1
  have recorded := tidy.record lexer.mode c rest
  rw [found] at passed recorded
  refine ⟨passed, ?_⟩
  obtain ⟨m, rfl⟩ := Nat.exists_eq_add_of_lt positive
  exact recorded

theorem take_ne_nil {c : Char} {rest : List Char} {n : Nat} (positive : 0 < n) :
    (c :: rest).take n ≠ [] := by
  rw [← List.length_pos_iff, List.length_take, List.length_cons]
  omega

/-- Whether pieces are what a lexer reads of the text in front of it. -/
structure Reads (lexer : Lexer) (pieces : List Piece) : Prop where
  laid : Laid lexer.offset pieces
  spelled : spell pieces = lexer.rest
  tokens : pieces.filterMap Piece.token? = lexer.drain.1
  errors : lexer.drain.2.errors = (pieces.filterMap Piece.error?).reverse ++ lexer.errors

section

variable {c : Char} {rest : List Char} {finding : Finding} {n : Nat} {pieces : List Piece}

/-- What is passed over is laid in front of what is read after it. -/
theorem Reads.over (front : lexer.rest = c :: rest) (tidy : lexer.Tidy)
    (found : findingIn lexer.mode (c :: rest) = (finding, n)) (skipped : finding.tokenKind? = none)
    (reads : (lexer.pass (finding, n) c rest).Reads pieces) :
    ∃ piece, lexer.Reads (piece :: pieces) := by
  obtain ⟨positive, suits⟩ := findingIn_suits lexer.mode (List.cons_ne_nil c rest)
  rw [found] at positive suits
  have passes := pass_passes front positive finding
  have split := rest_pass lexer c rest positive finding
  obtain ⟨piece, laid, text, noToken, error⟩ := suits.laid_over (take_ne_nil positive) skipped
    (reads.spelled.trans split) (passes.offset ▸ reads.laid)
  have next : lexer.drain = (lexer.pass (finding, n) c rest).drain := by
    rw [drain_eq, drain_eq, next_over front found skipped]
  refine ⟨piece, laid, ?_, ?_, ?_⟩
  · rw [passes.rest, ← text, ← reads.spelled]
    rfl
  · rw [List.filterMap_cons_none noToken, next, reads.tokens]
  · rw [next, reads.errors, (tidy.errors_pass found positive).2, ← error, List.filterMap_cons]
    cases piece.error? <;> simp

/-- What is read as a token is laid in front of what is read after it. -/
theorem Reads.token {kind : TokenKind} (front : lexer.rest = c :: rest) (tidy : lexer.Tidy)
    (found : findingIn lexer.mode (c :: rest) = (finding, n)) (taken : finding.tokenKind? = some kind)
    (reads : (lexer.pass (finding, n) c rest).settle.Reads pieces) :
    ∃ piece, lexer.Reads (piece :: pieces) := by
  obtain ⟨positive, suits⟩ := findingIn_suits lexer.mode (List.cons_ne_nil c rest)
  rw [found] at positive suits
  have passes := (pass_passes front positive finding).settle
  have next := drain_some (next_token front found positive taken)
  generalize (lexer.gap? lexer.offset).any breaksLine = newline at next
  have escapes (escape : String) (inside : Nat)
      (invalid : finding.error? = some (.invalidEscape escape inside)) :
      findInvalidEscape ((c :: rest).take n) = some (inside, escape.toList) := by
    have here : (findingIn lexer.mode (c :: rest)).1.error? = some (.invalidEscape escape inside) := by
      rw [found]
      exact invalid
    have spoiled := invalidEscape_findingIn here
    rwa [found] at spoiled
  have laid := suits.laid_token ⟨kind, String.ofList ((c :: rest).take n),
    ⟨lexer.offset, lexer.offset + byteLength ((c :: rest).take n)⟩, newline⟩
    (take_ne_nil positive) taken rfl rfl escapes (passes.offset ▸ reads.laid)
  refine ⟨_, laid, ?_, ?_, ?_⟩
  · rw [passes.rest]
    exact congrArg₂ _ String.toList_ofList reads.spelled
  · rw [next, ← reads.tokens]
    rfl
  · rw [next, reads.errors]
    have errors : (lexer.pass (finding, n) c rest).settle.errors = _ :=
      (tidy.errors_pass found positive).2
    rw [errors, List.filterMap_cons]
    simp only [Piece.error?]
    cases finding.errorAt? lexer.offset ((c :: rest).take n) <;> simp

end

/-- What a lexer reads lies end to end in the text in front of it. -/
theorem drain_laid (tidy : lexer.Tidy) : ∃ pieces, lexer.Reads pieces := by
  induction length : lexer.rest.length using Nat.strong_induction_on generalizing lexer with
  | _ size ih =>
    cases front : lexer.rest with
    | nil =>
      refine ⟨[], .nil _, front.symm, ?_, ?_⟩ <;> rw [drain_none front]
      · rfl
      · rfl
    | cons c rest =>
      obtain ⟨positive, _⟩ := findingIn_suits lexer.mode (List.cons_ne_nil c rest)
      cases found : findingIn lexer.mode (c :: rest) with
      | mk finding n =>
        rw [found] at positive
        have passed := (tidy.errors_pass found positive).1
        have shorter : (lexer.pass (finding, n) c rest).rest.length < size := by
          rw [rest_pass lexer c rest positive, ← length, front, List.length_drop, List.length_cons]
          omega
        cases taken : finding.tokenKind? with
        | none =>
          obtain ⟨pieces, reads⟩ := ih _ shorter passed rfl
          exact ⟨_, (reads.over front tidy found taken).choose_spec⟩
        | some kind =>
          obtain ⟨pieces, reads⟩ := ih _ shorter passed.settle rfl
          exact ⟨_, (reads.token front tidy found taken).choose_spec⟩

end Lexer

end OpenCLTree

import OpenCLTree.Proofs.Echo.Suffixes

namespace OpenCLTree

instance : Echoed ParenthesizedType :=
  ⟨fun e parts => ⟨e.token parts.opener, parts.type.mapTokens e.token, e.token parts.closer⟩⟩

@[simp]
theorem Echo.image_parenthesizedType (e : Echo) (parts : ParenthesizedType) :
    e.image parts =
      ⟨e.token parts.opener, parts.type.mapTokens e.token, e.token parts.closer⟩ := rfl

namespace Rule

variable {α β : Type} {e : Echo} {one two : Grammar} {guard : Guard} {state : GrammarState}
  {word : Word} {rest : List Word}

theorem Pairs.bind {first : Rule β} {next : β → Rule α} (pairs : Pairs e first state) :
    Pairs e (first >>= next) state := by
  intro word rest value after sound words paren run
  obtain ⟨found, middle, run, _⟩ := bind_inv run
  exact pairs word rest found middle sound words paren run

theorem Pairs.nested {rule : Rule α} (pairs : ∀ state, Pairs e rule state) :
    Pairs e (Rule.nested rule) state := by
  intro word rest value after sound words paren run
  unfold Rule.nested at run
  obtain ⟨found, middle, got, run⟩ := bind_inv run
  cases got
  split at run
  · rw [failExpecting_eq] at run
    cases run
  · obtain ⟨_, deeper, changed, run⟩ := bind_inv run
    cases changed
    unfold closing at run
    split at run
    · rename_i inner
      exact pairs { state with nesting := state.nesting + 1 } word rest _ _ (sound.ofCursor rfl)
        words paren inner
    · cases run
    · cases run

/-- What is read between two parentheses closes the brackets that it opens. -/
theorem pairs_enclosed [Echoed β] {inner inner' : Rule β} {next : Token → β → Token → Rule α}
    {margin gain : Nat}
    (echoes : ∀ state, inner.EchoesAt e (some 0) (some 0) margin gain inner' state) :
    Pairs e (expect (.punct .leftParen) >>= fun opener => inner >>= fun value =>
      expect (.punct .rightParen) >>= next opener value) state := by
  intro word rest value after sound words paren run
  rw [bind_done (EchoesAt.expect_eq sound.mode words paren)] at run
  obtain ⟨value, s1, readInner, run⟩ := bind_inv run
  obtain ⟨closer, s2, readCloser, run⟩ := bind_inv run
  have sound' : e.Sound (state.pass word.token rest) := sound.trail (.pass words)
  obtain ⟨trails, keeps, _⟩ := (echoes _).done sound' readInner
  obtain ⟨last, rest', words', closes⟩ := EchoesAt.expect_found (sound'.trail trails).mode readCloser
  have keeps := (keeps.resolve_left (by simp)) 0
  refine keeps.mpr (.inr ⟨0, rfl, ?_⟩)
  rw [words']
  exact Word.closes_here (closes ▸ rfl)

theorem parenthesizedExpression_pairs (echoes : one.Echoes e two) :
    Pairs e (parenthesizedExpression one) state :=
  pairs_enclosed fun _ => .nested (echoes.expression _ _ _)

/-- The rest of a type in parentheses. -/
def typeToCloser (sub : Grammar) (opener : Token) : Rule ParenthesizedType := do
  let type ← typeDescriptor sub
  match ← accept (.punct .rightParen) with
  | some closer => pure ⟨opener, type, closer⟩
  | none => fail (.ambiguousCast (opener.span.cover type.span))

theorem parenthesizedType_echoes (echoes : one.Echoes e two) :
    (parenthesizedType one).EchoesAt e guard guard 1 1 (parenthesizedType two) state := by
  unfold parenthesizedType
  refine .bind (.expectOpens rfl) fun opener s1 _ => ?_
  refine .bind (typeDescriptor_echoes echoes) fun type s2 _ => ?_
  refine .accept (fun word rest _ closer => keeps_closes (closer ▸ rfl)) (fun _ _ _ _ => .ofValue (by simp))
    fun _ => .fail _ fun reported => absurd rfl reported

theorem typeToCloser_echoes (echoes : one.Echoes e two) (opener : Token) :
    (typeToCloser one opener).EchoesAt e (some 0) none 1 1 (typeToCloser two (e.token opener))
      state := by
  unfold typeToCloser
  refine .bind (typeDescriptor_echoes echoes).anyGain fun type s1 _ => ?_
  exact .acceptLast (fun closer => ⟨opener, type, closer⟩) (fun closer => ⟨rfl, rfl⟩) fun _ =>
    .fail _ fun reported => absurd rfl reported

/-- Tries to read a type in parentheses before it goes on. Where this fails, what is read instead
shows that the parenthesis is closed, so the second run fails to read a type as well. -/
theorem tryParenthesizedType_echoes [Echoed α] {next next' : Option ParenthesizedType → Rule α}
    (echoes : one.Echoes e two) (words : state.cursor.rest = word :: rest)
    (paren : word.token.kind = .punct .leftParen)
    (typed : ∀ parts state, (next (some parts)).EchoesAt e guard guard 1 0
      (next' (some (e.image parts))) state)
    (untyped : (next none).EchoesAt e guard guard 1 1 (next' none) state)
    (pairs : Pairs e (next none) state) :
    (tryParenthesizedType one >>= next).EchoesAt e guard guard 1 1
      (tryParenthesizedType two >>= next') state := by
  intro sound
  cases run : parenthesizedType one state with
  | exhausted =>
    rw [bind_exhausted (tryParenthesizedType_exhausted run)]
    trivial
  | done parts after =>
    have tried : (tryParenthesizedType one).EchoesAt e guard guard 1 1 (tryParenthesizedType two)
        state := by
      intro sound
      rw [tryParenthesizedType_done run]
      obtain ⟨trails, keeps, follows⟩ := (parenthesizedType_echoes echoes).done sound run
      refine ⟨trails, keeps, fun clear other agrees => ?_⟩
      obtain ⟨last, run', agrees', trails'⟩ := follows clear other agrees
      exact ⟨last, tryParenthesizedType_done run', agrees', trails'⟩
    refine EchoesAt.bind tried (fun found s1 found' => ?_) sound
    rw [tryParenthesizedType_done run] at found'
    cases found'
    exact typed parts after
  | failed error after =>
    have sound' : e.Sound (state.pass word.token rest) := sound.trail (.pass words)
    have inner {sub : Grammar} {state : GrammarState} {word : Word} {rest : List Word}
        (normal : state.cursor.mode = .normal) (words : state.cursor.rest = word :: rest)
        (paren : word.token.kind = .punct .leftParen) :
        parenthesizedType sub state =
          typeToCloser sub word.token (state.pass word.token rest) :=
      bind_done (EchoesAt.expect_eq normal words paren)
    rw [inner sound.mode words paren] at run
    obtain ⟨trails, follows⟩ := (typeToCloser_echoes echoes word.token).failed sound' run
    have goesOn : (tryParenthesizedType one >>= next) state = next none state := by
      rw [← inner sound.mode words paren] at run
      exact bind_done (tryParenthesizedType_failed run ((GrammarState.Trails.pass words).trans trails).restore)
    have replays (closed : e.Guards (some 0) 0 rest) (other : GrammarState)
        (agrees : e.Agrees state other) : ∃ middle, e.Agrees state middle ∧ other.Trails 0 middle ∧
          (tryParenthesizedType two >>= next') other = next' none middle := by
      have words' := agrees.words_eq words
      obtain ⟨error', last, run', _, _, trails'⟩ := (follows closed).2 _ (agrees.pass word rest)
      have run' : parenthesizedType two other = .failed error' last :=
        (inner (agrees.mode.trans sound.mode) words' ((e.kind _).trans paren)).trans run'
      have back := ((GrammarState.Trails.pass words').trans trails').restore
      exact ⟨other, agrees, .refl other, bind_done (tryParenthesizedType_failed run' back)⟩
    rw [goesOn]
    cases run1 : next none state with
    | exhausted => trivial
    | done value last =>
      obtain ⟨trails, keeps, follows⟩ := untyped.done sound run1
      have closed := pairs word rest value last sound words paren run1
      exact ⟨trails, keeps, fun clear => (follows clear).replay (replays closed)⟩
    | failed error last =>
      obtain ⟨trails, follows⟩ := untyped.failed sound run1
      refine ⟨trails, fun guards => (follows guards).imp_right fun alike => alike.replay (replays ?_)⟩
      rw [words, Echo.guards_opens (paren ▸ rfl)] at guards
      exact guards.base

theorem typeInParens_echoes [Echoed α] {next next' : Option ParenthesizedType → Rule α}
    (echoes : one.Echoes e two) (words : state.cursor.rest = word :: rest)
    (paren : word.token.kind = .punct .leftParen)
    (typed : ∀ parts state, (next (some parts)).EchoesAt e guard guard 1 0
      (next' (some (e.image parts))) state)
    (untyped : (next none).EchoesAt e guard guard 1 1 (next' none) state)
    (pairs : Pairs e (next none) state) :
    (typeInParens one >>= next).EchoesAt e guard guard 1 1 (typeInParens two >>= next') state := by
  unfold typeInParens
  rw [bind_assoc, bind_assoc]
  refine .startsTypeNameAt ?_ (by omega) fun guards => guards.reaches_two words (paren ▸ rfl)
  split
  · exact tryParenthesizedType_echoes echoes words paren typed untyped pairs
  · exact untyped

theorem leadingType_echoes [Echoed α] {next next' : Option ParenthesizedType → Rule α}
    (echoes : one.Echoes e two)
    (typed : ∀ parts state, (next (some parts)).EchoesAt e guard guard 1 0
      (next' (some (e.image parts))) state)
    (untyped : (next none).EchoesAt e guard guard 1 1 (next' none) state)
    (pairs : Pairs e (next none) state) :
    (leadingType one >>= next).EchoesAt e guard guard 1 1 (leadingType two >>= next') state := by
  unfold leadingType
  rw [bind_assoc, bind_assoc]
  refine .check (fun word rest words paren => ?_) fun _ => untyped
  exact typeInParens_echoes echoes words paren typed untyped pairs

theorem designators_echoes (echoes : one.Echoes e two) :
    (designators one).EchoesAt e guard guard 1 0 (designators two) state := by
  refine .many fun s => ?_
  refine .currentKind (fun _ => .ofValue (by simp)) fun word rest words => ?_
  split
  · refine .bind (.expectStays rfl) fun dot s1 _ => ?_
    refine .bind (.expectStays rfl) fun name s2 _ => ?_
    exact .ofValue (by simp)
  · refine .bind (.expectOpens rfl) fun opener s1 _ => ?_
    refine .bind (echoes.expression _ s1 .conditional) fun index s2 _ => ?_
    refine .bind (.expectCloses rfl) fun closer s3 _ => ?_
    exact .ofValue (by simp)
  · exact .ofValue (by simp)

theorem initializerPair_echoes (echoes : one.Echoes e two) :
    (initializerPair one).EchoesAt e guard guard 1 0 (initializerPair two) state := by
  unfold initializerPair
  refine .bind (designators_echoes echoes) fun designators s1 _ => ?_
  refine .bind (.expectStays rfl) fun assign s2 _ => ?_
  refine .bind (echoes.initializer _ s2) fun value s3 _ => ?_
  exact .ofValue (by simp)

theorem initializerList_echoes (echoes : one.Echoes e two) :
    (initializerList one).EchoesAt e guard guard 1 1 (initializerList two) state := by
  unfold initializerList
  refine .bind (.expectOpens rfl) fun opener s1 _ => ?_
  refine .bind (.commaSeparated fun s => ?_) fun entries s2 _ => ?_
  · refine .currentKind (fun _ => (echoes.initializer _ s).anyGain) fun word rest words => ?_
    split
    · exact initializerPair_echoes echoes
    · exact initializerPair_echoes echoes
    · exact (echoes.initializer _ s).anyGain
  · refine .bind (.expectCloses rfl) fun closer s3 _ => ?_
    exact .ofValue (by simp)

theorem afterParenthesizedType_echoes (echoes : one.Echoes e two) (parts : ParenthesizedType) :
    (afterParenthesizedType one parts).EchoesAt e guard guard 1 0
      (afterParenthesizedType two (e.image parts)) state := by
  have casts : (afterParenthesizedType.cast one parts).EchoesAt e guard guard 1 0
      (afterParenthesizedType.cast two (e.image parts)) state := by
    refine .bind (echoes.castExpression guard state) fun value s1 _ => ?_
    exact .ofValue (by simp [ParenthesizedType.children])
  have other {kind : NodeKind} (children : List Child) (other : kind ≠ .identifier) :
      e.KnowsCallee (.make kind children) := fun isName => absurd isName other
  unfold afterParenthesizedType
  refine .currentKind (fun _ => casts) fun word rest words => ?_
  split
  · refine .bind (initializerList_echoes echoes) fun list s1 _ => ?_
    have knows := other (parts.children ++ [list.as .value])
      (show NodeKind.compoundLiteralExpression ≠ .identifier by decide)
    have suffixed : (suffixes one _).EchoesAt e guard guard 1 0 (suffixes two _) s1 :=
      suffixes_echoes echoes knows
    simpa [ParenthesizedType.children] using suffixed
  · simp only [Echo.image_parenthesizedType, Node.isPlainVectorType_mapTokens]
    split
    · refine .bind (argumentList_echoes echoes) fun arguments s1 _ => ?_
      have knows := other (parts.children ++ [arguments.as .arguments])
        (show NodeKind.vectorLiteral ≠ .identifier by decide)
      have suffixed : (suffixes one _).EchoesAt e guard guard 1 0 (suffixes two _) s1 :=
        suffixes_echoes echoes knows
      simpa [ParenthesizedType.children] using suffixed
    · exact casts
  · exact casts

theorem sizeofExpression_echoes (echoes : one.Echoes e two) :
    (sizeofExpression one).EchoesAt e guard guard 1 1 (sizeofExpression two) state := by
  unfold sizeofExpression
  refine .bind (.expectStays rfl) fun word s1 _ => ?_
  refine (leadingType_echoes echoes (fun parts s => ?_) ?_ ?_).anyGain
  · exact .ofValue (by simp [ParenthesizedType.children])
  · exact .bind (.nested (echoes.unaryExpression guard _)) fun value s2 _ => .ofValue (by simp)
  · exact .bind (.nested fun s => echoes.unaryPairs s)

theorem alignofExpression_echoes (echoes : one.Echoes e two) :
    (alignofExpression one).EchoesAt e guard guard 1 1 (alignofExpression two) state := by
  unfold alignofExpression
  refine .bind (.expectStays rfl) fun word s1 _ => ?_
  refine .bind (.expectOpens rfl) fun opener s2 _ => ?_
  refine .bind (typeDescriptor_echoes echoes) fun type s3 _ => ?_
  refine .bind (.expectCloses rfl) fun closer s4 _ => ?_
  exact .ofValue (by simp)

/-- No type stands in front of a parenthesis that is not there. -/
theorem typeInParens_missing {sub : Grammar} (normal : state.cursor.mode = .normal)
    (missing : ∀ word rest, state.cursor.rest = word :: rest → word.token.kind ≠ .punct .leftParen) :
    typeInParens sub state = .done none state := by
  have asked : startsTypeNameAt 1 state =
      .done ((state.cursor.peek? 1).any state.scopes.startsTypeName) state := startsTypeNameAt_eq 1 state
  unfold typeInParens
  rw [bind_done asked]
  split
  · exact tryParenthesizedType_failed (EchoesAt.expect_missing normal missing) (GrammarState.Trails.refl state).restore
  · rfl

theorem vecStepExpression_echoes (echoes : one.Echoes e two) :
    (vecStepExpression one).EchoesAt e guard guard 1 1 (vecStepExpression two) state := by
  unfold vecStepExpression
  refine .bind (.expectStays rfl) fun word s1 _ => ?_
  by_cases found : ∃ opener rest, s1.cursor.rest = opener :: rest ∧
      opener.token.kind = .punct .leftParen
  · obtain ⟨opener, rest, words, paren⟩ := found
    refine (typeInParens_echoes echoes words paren (fun parts s => ?_) ?_ ?_).anyGain
    · exact .ofValue (by simp [ParenthesizedType.children])
    · refine .bind (.expectOpens rfl) fun opener s2 _ => ?_
      refine .bind (echoes.expression _ s2 .comma) fun value s3 _ => ?_
      refine .bind (.expectCloses rfl) fun closer s4 _ => ?_
      exact .ofValue (by simp)
    · exact pairs_enclosed fun s => echoes.expression _ s .comma
  · refine .failsBefore (.punct .leftParen) (.token (.punct .leftParen)) (fun s normal missing => ?_)
      (fun s normal missing => ?_) fun opener rest words paren => found ⟨opener, rest, words, paren⟩
    all_goals
      rw [bind_done (typeInParens_missing normal missing)]
      exact EchoesAt.expect_missing normal missing

theorem unaryOperator?_eq_some {kind found : TokenKind} (looked : unaryOperator? kind = some found) :
    kind = found ∧ found.turn = .stays := by
  have all : ∀ operator ∈ Operator.table, operator.fixity = .prefixOp → operator.level = .unary →
      operator.token.turn = .stays := by decide
  obtain ⟨operator, atOperator, rfl⟩ := Option.map_eq_some_iff.mp looked
  obtain ⟨atOperator, unary⟩ := Option.filter_eq_some_iff.mp atOperator
  have same := List.find?_some atOperator
  simp only [Bool.and_eq_true, beq_iff_eq] at same unary
  exact ⟨same.1.symm, all operator (List.mem_of_find?_eq_some atOperator) same.2 unary⟩

theorem infixOperator_stays {kind : TokenKind} {operator : Operator}
    (looked : Operator.find? .infixOp kind = some operator) : kind.turn = .stays := by
  have all : ∀ operator ∈ Operator.table, operator.fixity = .infixOp →
      operator.token.turn = .stays := by decide
  have same := List.find?_some looked
  simp only [Bool.and_eq_true, beq_iff_eq] at same
  exact same.1 ▸ all operator (List.mem_of_find?_eq_some looked) same.2

theorem unaryExpression_echoes (echoes : one.Echoes e two) :
    (unaryExpression one).EchoesAt e guard guard 1 1 (unaryExpression two) state := by
  unfold unaryExpression
  refine .current (fun _ => .failExpecting _ _) fun word rest words => ?_
  dsimp only
  rw [e.kind]
  cases looked : unaryOperator? word.token.kind with
  | none => exact postfixExpression_echoes echoes
  | some kind =>
    obtain ⟨same, stays⟩ := unaryOperator?_eq_some looked
    have taken : Keeps e guard guard (word :: rest) rest := keeps_stays (same ▸ stays)
    split
    case h_1 none => cases none
    case h_2 => exact sizeofExpression_echoes echoes
    case h_3 => exact alignofExpression_echoes echoes
    case h_4 => exact vecStepExpression_echoes echoes
    case h_5 | h_6 =>
      refine .advance words taken ?_
      refine .bind (.nested (echoes.unaryExpression guard _)) fun operand s1 _ => ?_
      exact .ofValue (by simp [prefixed])
    all_goals
      refine .advance words taken ?_
      refine .bind (echoes.castExpression guard _) fun operand s1 _ => ?_
      exact .ofValue (by simp [prefixed])

theorem unaryExpression_pairs (echoes : one.Echoes e two) :
    (unaryExpression one).Pairs e state := by
  intro word rest value after sound words paren run
  have looked := EchoesAt.current_eq sound.mode words
  have plain : unaryOperator? (.punct .leftParen) = none := by decide
  unfold unaryExpression at run
  rw [bind_done looked] at run
  simp only [paren, plain] at run
  obtain ⟨primary, s1, run, _⟩ := bind_inv run
  unfold primaryExpression at run
  rw [bind_done looked] at run
  simp only [paren] at run
  exact parenthesizedExpression_pairs echoes word rest primary s1 sound words paren run

theorem castExpression_echoes (echoes : one.Echoes e two) :
    (castExpression one).EchoesAt e guard guard 1 1 (castExpression two) state := by
  refine .nested (leadingType_echoes echoes (fun parts s => ?_) ?_ ?_)
  · exact afterParenthesizedType_echoes echoes parts
  · exact unaryExpression_echoes echoes
  · exact unaryExpression_pairs echoes

theorem conditionalRest_echoes (echoes : one.Echoes e two) (condition : Node) (question : Token) :
    (conditionalRest one condition question).EchoesAt e guard guard 1 0
      (conditionalRest two (condition.mapTokens e.token) (e.token question)) state := by
  unfold conditionalRest
  refine .bind (echoes.expression guard state .comma) fun consequence s1 _ => ?_
  refine .bind (.expectStays rfl) fun colon s2 _ => ?_
  refine .bind (echoes.expression guard s2 .conditional) fun alternative s3 _ => ?_
  exact .ofValue (by simp)

theorem infixed_image (level : Level) (left : Node) (operator : Token) (right : Node) :
    infixed level (left.mapTokens e.token) (e.token operator) (right.mapTokens e.token) =
      (infixed level left operator right).mapTokens e.token := by
  unfold infixed
  split <;> simp

theorem extend?_echoes (echoes : one.Echoes e two) (least : Level) (left : Node) :
    (extend? one least left).EchoesAt e guard guard 1 0
      (extend? two least (left.mapTokens e.token)) state := by
  unfold extend?
  refine .current (fun _ => .ofValue (by simp)) fun word rest words => ?_
  dsimp only
  rw [e.kind]
  cases looked : Operator.find? .infixOp word.token.kind with
  | none => exact .ofValue (by simp)
  | some operator =>
    dsimp only
    split
    · exact .ofValue (by simp)
    · refine .advance words (keeps_stays (infixOperator_stays looked)) ?_
      split
      · exact .bind (conditionalRest_echoes echoes left word.token) fun node s1 _ => .ofValue (by simp)
      · refine .bind (echoes.expression guard _ operator.rightLevel) fun right s1 _ => ?_
        exact .ofValue (congrArg some (infixed_image operator.level left word.token right))

theorem expression_echoes (echoes : one.Echoes e two) (least : Level) :
    (expression one least).EchoesAt e guard guard 1 1 (expression two least) state := by
  unfold expression
  refine .bind (castExpression_echoes echoes) fun first s1 _ => ?_
  refine .repeated fun left s => ?_
  refine .bind (extend?_echoes echoes least left) fun found s2 _ => ?_
  cases found <;> exact .ofValue (by simp)

theorem initializer_echoes (echoes : one.Echoes e two) :
    (initializer one).EchoesAt e guard guard 1 1 (initializer two) state := by
  unfold initializer
  refine .check (fun _ _ _ _ => ?_) fun _ => expression_echoes echoes .assignment
  exact .nested (initializerList_echoes echoes)

end Rule

end OpenCLTree

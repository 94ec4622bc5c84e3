import OpenCLTree.Proofs.Echo.Declarator
import OpenCLTree.Proofs.Grammar.Expression

namespace OpenCLTree

/-- Whether a callee, if it is a name, is none on which the scopes of the two runs may differ. -/
def Echo.KnowsCallee (e : Echo) (callee : Node) : Prop :=
  callee.kind = .identifier → ∀ name ∈ callee.childTokens.head?, ¬ e.foreign name.text

theorem Echo.Agrees.builtinCallee? {e : Echo} {state other : GrammarState} {callee : Node}
    (agrees : e.Agrees state other) (knows : e.KnowsCallee callee) :
    OpenCLTree.builtinCallee? other.scopes (callee.mapTokens e.token) =
      (OpenCLTree.builtinCallee? state.scopes callee).map e.token := by
  unfold OpenCLTree.builtinCallee?
  rw [Node.kind_mapTokens]
  split
  · rename_i isName
    rw [Node.childTokens_mapTokens, List.head?_map]
    cases named : callee.childTokens.head? with
    | none => rfl
    | some name =>
      have known : ¬ e.foreign name.text := knows isName name named
      simp only [Option.map_some, Option.filter_some, e.text, agrees.isOrdinary known]
      split <;> rfl
  · rfl

namespace Rule

variable {α : Type} [Echoed α] {e : Echo} {one two : Grammar} {guard post : Guard}
  {margin gain : Nat} {state : GrammarState} {word : Word} {rest : List Word}

theorem parenthesizedExpression_echoes (echoes : one.Echoes e two) :
    (parenthesizedExpression one).EchoesAt e guard guard 1 1 (parenthesizedExpression two)
      state := by
  unfold parenthesizedExpression
  refine .bind (.expectOpens rfl) fun opener s1 _ => ?_
  refine .bind (.nested (echoes.expression _ _ .comma)) fun inner s2 _ => ?_
  refine .bind (.expectCloses rfl) fun closer s3 _ => ?_
  exact .ofValue (by simp)

/-- A string literal that comes next. -/
def stringPart : Rule (Option Node) := do
  match ← accept .string with
  | some token => pure (some (Node.ofToken .stringLiteral token))
  | none => pure none

theorem stringPart_echoes : stringPart.EchoesAt e guard guard 1 0 stringPart state :=
  .acceptStays rfl (fun word rest _ _ => .ofValue (by simp)) fun _ => .ofValue (by simp)

theorem stringPart_first (words : state.cursor.rest = word :: rest)
    (isString : word.token.kind = .string) :
    stringPart.EchoesAt e guard guard 1 1 stringPart state :=
  .acceptStays rfl (fun word rest _ _ => .ofValue (by simp)) fun missing =>
    absurd isString (missing word rest words)

theorem stringLiteral_echoes (words : state.cursor.rest = word :: rest)
    (isString : word.token.kind = .string) :
    stringLiteral.EchoesAt e guard guard 1 1 stringLiteral state := by
  refine .bind (.manyFrom (fun s => stringPart_echoes) (stringPart_first words isString))
    fun strings s1 _ => ?_
  rcases strings with _ | ⟨single, _ | ⟨next, rest⟩⟩
  · exact .failExpecting _ _
  · exact .ofValue (by simp)
  · refine .ofValue ?_
    simp [e.image_list, Function.comp_def]

theorem primaryExpression_echoes (echoes : one.Echoes e two) :
    (primaryExpression one).EchoesAt e guard guard 1 1 (primaryExpression two) state := by
  unfold primaryExpression
  refine .current (fun _ => .failExpecting _ _) fun word rest words => ?_
  dsimp only
  rw [e.kind]
  split
  case h_4 isString => exact stringLiteral_echoes words isString
  case h_5 => exact parenthesizedExpression_echoes echoes
  case h_6 => exact .failExpecting _ _
  all_goals
    rename_i kind
    exact .advance words (keeps_stays (kind ▸ rfl)) (.ofValue (by simp))

theorem argumentList_echoes (echoes : one.Echoes e two) :
    (argumentList one).EchoesAt e guard guard 1 1 (argumentList two) state := by
  unfold argumentList
  refine .bind (.expectOpens rfl) fun opener s1 _ => ?_
  refine .bind (.commaSeparated fun s => (echoes.expression _ s _).anyGain) fun arguments s2 _ => ?_
  refine .bind (.expectCloses rfl) fun closer s3 _ => ?_
  exact .ofValue (by simp)

theorem callSuffix_echoes (echoes : one.Echoes e two) {callee : Node}
    (knows : e.KnowsCallee callee) :
    (callSuffix one callee).EchoesAt e guard guard 1 1 (callSuffix two (callee.mapTokens e.token))
      state := by
  refine .bind (argumentList_echoes echoes) fun arguments s1 _ => ?_
  let answer (callee arguments : Node) (found : Option Token) : Rule Node :=
    match found with
    | some name => pure (.make .builtinFunctionCall
        [(Node.ofToken .builtinFunction name).as .function, arguments.as .arguments])
    | none => pure (.make .callExpression [callee.as .function, arguments.as .arguments])
  have answered (found : Option Token) :
      (answer callee arguments found).EchoesAt e guard guard 1 0
        (answer (callee.mapTokens e.token) (e.image arguments) (found.map e.token)) s1 := by
    cases found <;> exact .ofValue (by simp)
  refine (answered (builtinCallee? s1.scopes callee)).congr (fun _ => rfl) fun other _ agrees => ?_
  rw [← agrees.builtinCallee? knows]
  rfl

theorem subscriptSuffix_echoes (echoes : one.Echoes e two) (array : Node) :
    (subscriptSuffix one array).EchoesAt e guard guard 1 1
      (subscriptSuffix two (array.mapTokens e.token)) state := by
  unfold subscriptSuffix
  refine .bind (.expectOpens rfl) fun opener s1 _ => ?_
  refine .bind (echoes.expression _ s1 .comma) fun index s2 _ => ?_
  refine .bind (.expectCloses rfl) fun closer s3 _ => ?_
  exact .ofValue (by simp)

theorem memberSuffix_echoes (record : Node) :
    (memberSuffix record).EchoesAt e guard guard 1 1 (memberSuffix (record.mapTokens e.token))
      state := by
  unfold memberSuffix
  refine .current (fun _ => .failExpecting _ _) fun word rest words => ?_
  dsimp only
  rw [e.kind]
  split
  · rename_i isMember
    have stays : word.token.kind.turn = .stays := by
      rcases isMember with kind | kind <;> exact kind ▸ rfl
    refine .advance words (keeps_stays stays) ?_
    refine .bind (.expectStays rfl) fun name s1 _ => ?_
    exact .ofValue (by simp)
  · exact .failExpecting _ _

/-- Looks at the next token as suffixes are read, where it may be an accessor. -/
theorem suffixToken_echoes {next next' : Option Token → Rule α}
    (ended : state.cursor.rest = [] →
      (next none).EchoesAt e guard post margin gain (next' none) state)
    (plain : ∀ word rest, state.cursor.rest = word :: rest → word.accessor = none →
      (next (some word.token)).EchoesAt e guard post margin gain
        (next' (some (e.token word.token))) state)
    (joined : ∀ word accessor name rest, state.cursor.rest = word :: name :: rest →
      word.accessor = some accessor → accessor.kind = .swizzle →
      word.token.kind = .punct .dot → name.token.kind = .identifier →
      (next (some accessor)).EchoesAt e guard post margin gain (next' (some (e.token accessor)))
        state)
    [seen : Seen 1 margin gain] :
    (inMode .suffix Rule.current >>= next).EchoesAt e guard post margin gain
      (inMode .suffix Rule.current >>= next') state := by
  have looked (state : GrammarState) : inMode .suffix Rule.current state =
      .done ((Word.read? .suffix state.cursor.rest).map (·.1)) state := rfl
  cases words : state.cursor.rest with
  | nil =>
    have read : (Word.read? .suffix state.cursor.rest).map (·.1) = none := by rw [words]; rfl
    refine .look (fun _ => looked state) (fun other _ agrees (reaches : e.Reaches 1 state) => ?_)
      (read ▸ ended words) seen.room fun guards => guards.reaches seen.near
    have none : e.after = [] := by
      rcases reaches with none | enough
      · exact none
      · simp [GrammarState.remaining, words] at enough
    rw [looked, agrees.rest, words, none]
    rfl
  | cons word rest =>
    have looked' (other : GrammarState) (agrees : e.Agrees state other) :
        inMode .suffix Rule.current other =
          .done (((Word.read? .suffix state.cursor.rest).map (·.1)).map e.token) other := by
      rw [looked, agrees.words_eq words, words]
      cases read : word.accessor <;> simp [Word.read?, Echo.word, read]
    intro sound
    refine EchoesAt.look (fun _ => looked state)
      (fun other _ agrees (_ : e.Reaches 1 state) => looked' other agrees) ?_
      seen.room (fun guards => guards.reaches seen.near) sound
    rw [words]
    cases read : word.accessor with
    | none =>
      simp only [Word.read?, read, Option.map_some]
      exact plain word rest words read
    | some accessor =>
      obtain ⟨isDot, isAccessor, name, others, rfl, isName⟩ :=
        sound.joined word rest (words ▸ List.suffix_rfl) accessor read
      simp only [Word.read?, read, Option.map_some]
      exact joined word accessor name others words read isAccessor isDot isName

theorem advanceSuffix_eq {token : Token}
    (read : Word.read? .suffix state.cursor.rest = some (token, rest)) :
    inMode .suffix Rule.advance state = .done () (state.pass token rest) := by
  have advances : Rule.advance { state with cursor := state.cursor.setMode .suffix } =
      .done () (GrammarState.pass { state with cursor := state.cursor.setMode .suffix } token rest) := by
    simp [Rule.advance, Rule.modify, Cursor.advance?, Cursor.setMode, read, GrammarState.pass]
  change closing Rule.advance
    (fun after => { after with cursor := after.cursor.setMode state.cursor.mode })
    { state with cursor := state.cursor.setMode .suffix } = _
  rw [closing, advances]
  rfl

/-- Takes a dot and the component names behind it. -/
theorem advanceAccessor_echoes {accessor : Token} {name : Word}
    (words : state.cursor.rest = word :: name :: rest) (read : word.accessor = some accessor)
    (isDot : word.token.kind = .punct .dot) (isName : name.token.kind = .identifier) :
    (inMode .suffix Rule.advance).EchoesAt e guard guard 0 1 (inMode .suffix Rule.advance) state := by
  have passes {state : GrammarState} {word name : Word} {rest : List Word} {accessor : Token}
      (words : state.cursor.rest = word :: name :: rest) (read : word.accessor = some accessor) :
      inMode .suffix Rule.advance state = .done () (state.pass accessor rest) :=
    advanceSuffix_eq (by simp only [words, Word.read?, read, List.tail_cons])
  have trails {state : GrammarState} {word name : Word} {rest : List Word} (accessor : Token)
      (words : state.cursor.rest = word :: name :: rest) :
      state.Trails 1 (state.pass accessor rest) := by
    refine ⟨.inr ⟨List.cons_ne_nil _ _, ?_⟩, ?_, rfl, rfl, List.prefix_rfl, .refl _⟩
    · rw [words]
      exact List.suffix_cons name rest
    · simp only [GrammarState.remaining, GrammarState.pass, words, List.length_cons]
      omega
  intro _
  rw [passes words read]
  refine ⟨trails accessor words, ?_, fun _ other agrees => ?_⟩
  · refine .inr fun depth => ?_
    rw [words, Echo.guards_stays (isDot ▸ rfl), Echo.guards_stays (isName ▸ rfl)]
    rfl
  · have words' := agrees.words_eq words
    rw [List.map_cons, List.cons_append] at words'
    have read' : (e.word word).accessor = some (e.token accessor) := congrArg (Option.map e.token) read
    refine ⟨_, passes words' read', ?_, (trails _ words').weaken (Nat.zero_le 1)⟩
    exact { agrees with taken := by simp [GrammarState.pass, agrees.taken], rest := rfl }

theorem suffix?_echoes (echoes : one.Echoes e two) {inner : Node} (knows : e.KnowsCallee inner) :
    (suffix? one inner).EchoesAt e guard guard 1 0 (suffix? two (inner.mapTokens e.token)) state := by
  unfold suffix?
  refine suffixToken_echoes (fun _ => .ofValue (by simp)) (fun word rest words read => ?_)
    fun word accessor name rest words read isAccessor isDot isName => ?_
  · dsimp only
    rw [e.kind]
    cases looked : suffixOperator? word.token.kind with
    | none => exact .ofValue (by simp)
    | some kind =>
      have same := suffixOperator?_eq_some looked
      have update (stays : kind.turn = .stays) :
          (Rule.advance >>= fun _ => pure (some (.make .updateExpression
            [inner.as .argument, word.token.as .operator])) : Rule (Option Node)).EchoesAt e guard
            guard 1 0 (Rule.advance >>= fun _ => pure (some (.make .updateExpression
              [(inner.mapTokens e.token).as .argument, (e.token word.token).as .operator])))
            state :=
        .advance words (keeps_stays (same ▸ stays)) (.ofValue (by simp))
      split
      case h_1 => exact .bind (callSuffix_echoes echoes knows) fun node s1 _ => .ofValue (by simp)
      case h_2 => exact .bind (subscriptSuffix_echoes echoes inner) fun node s1 _ => .ofValue (by simp)
      case h_3 isAccessor =>
        cases isAccessor
        rw [Node.mayBeVector_mapTokens]
        split
        · refine .take words (fun _ => advanceSuffix_eq (by simp only [words, Word.read?, read]))
            (fun other _ agrees => advanceSuffix_eq ?_) (keeps_stays (same ▸ rfl)) ?_
          · simp only [agrees.words_eq words, Word.read?, Echo.word, read, Option.map_none]
          · exact .ofValue (by simp)
        · exact .bind (memberSuffix_echoes inner) fun node s1 _ => .ofValue (by simp)
      case h_4 | h_5 => exact .bind (memberSuffix_echoes inner) fun node s1 _ => .ofValue (by simp)
      case h_6 step | h_7 step =>
        cases step
        exact update rfl
      case h_8 => exact .ofValue (by simp)
  · dsimp only
    rw [e.kind, isAccessor, Node.mayBeVector_mapTokens]
    change EchoesAt e guard guard 1 0 (if inner.mayBeVector then _ else _)
      (if inner.mayBeVector then _ else _) state
    split
    · exact .bind (advanceAccessor_echoes words read isDot isName) fun _ s1 _ => .ofValue (by simp)
    · exact .bind (memberSuffix_echoes inner) fun node s1 _ => .ofValue (by simp)

theorem callSuffix_gives (sub : Grammar) (callee : Node) :
    (callSuffix sub callee).Gives (·.kind ≠ .identifier) := by
  refine gives_bind fun arguments => gives_bind fun scopes => ?_
  split <;> exact gives_pure (by simp)

theorem subscriptSuffix_gives (sub : Grammar) (array : Node) :
    (subscriptSuffix sub array).Gives (·.kind ≠ .identifier) :=
  gives_bind fun _ => gives_bind fun _ => gives_bind fun _ => gives_pure (by simp)

theorem memberSuffix_gives (record : Node) :
    (memberSuffix record).Gives (·.kind ≠ .identifier) := by
  refine gives_bind fun found => ?_
  split
  · exact gives_failExpecting _
  · split
    · exact gives_bind fun _ => gives_bind fun _ => gives_pure (by simp)
    · exact gives_failExpecting _

/-- What a suffix makes is no name. -/
theorem suffix?_gives (sub : Grammar) (inner : Node) :
    (suffix? sub inner).Gives fun found => ∀ outer ∈ found, outer.kind ≠ .identifier := by
  have member : (memberSuffix inner >>= fun node => pure (some node)).Gives
      fun found => ∀ outer ∈ found, outer.kind ≠ .identifier :=
    (memberSuffix_gives inner).bind fun node other => gives_pure (by simpa using other)
  refine gives_bind fun found => ?_
  split
  · exact gives_pure (by simp)
  · split
    · exact (callSuffix_gives sub inner).bind fun node other => gives_pure (by simpa using other)
    · exact (subscriptSuffix_gives sub inner).bind fun node other => gives_pure (by simpa using other)
    · split
      · exact gives_bind fun _ => gives_pure (by simp)
      · exact member
    · exact member
    · exact member
    · exact gives_bind fun _ => gives_pure (by simp)
    · exact gives_bind fun _ => gives_pure (by simp)
    · exact gives_pure (by simp)

/-- One round of reading suffixes. -/
def nextSuffix (sub : Grammar) (inner : Node) : Rule (Node ⊕ Node) := do
  match ← suffix? sub inner with
  | some outer => pure (.inl outer)
  | none => pure (.inr inner)

theorem nextSuffix_gives (sub : Grammar) (inner : Node) :
    (nextSuffix sub inner).Gives
      fun answer => ∀ next, answer = .inl next → next.kind ≠ .identifier := by
  refine (suffix?_gives sub inner).bind fun found others => ?_
  cases found with
  | none => exact gives_pure (by simp)
  | some outer => exact gives_pure (by simpa using others outer rfl)

theorem suffixes_echoes (echoes : one.Echoes e two) {inner : Node} (knows : e.KnowsCallee inner) :
    (suffixes one inner).EchoesAt e guard guard 1 0 (suffixes two (inner.mapTokens e.token))
      state := by
  have round (inner : Node) (state : GrammarState) (knows : e.KnowsCallee inner) :
      (nextSuffix one inner).EchoesAt e guard guard 1 0
        (nextSuffix two (inner.mapTokens e.token)) state := by
    refine .bind (suffix?_echoes echoes knows) fun found s1 _ => ?_
    cases found <;> exact .ofValue (by simp)
  refine .loop (fun inner _ => e.KnowsCallee inner) round (fun inner s next after _ run => ?_) knows
    (round inner state knows)
  exact fun isName => absurd isName (nextSuffix_gives one inner s (.inl next) after run next rfl)

theorem stringLiteral_gives : stringLiteral.Gives (·.kind ≠ .identifier) := by
  have part : stringPart.Gives fun found => ∀ node ∈ found, node.kind ≠ .identifier := by
    refine gives_bind fun found => ?_
    split <;> exact gives_pure (by simp [Node.ofToken])
  refine (gives_many part).bind fun found others => ?_
  split
  · exact gives_failExpecting _
  · exact gives_pure (others _ List.mem_cons_self)
  · exact gives_pure (by simp)

theorem primaryExpression_gives (sub : Grammar) {token : Token} (other : token.kind ≠ .identifier)
    (state : GrammarState) {node : Node} {after : GrammarState}
    (looked : current state = .done (some token) state)
    (run : primaryExpression sub state = .done node after) : node.kind ≠ .identifier := by
  have parenthesized : (parenthesizedExpression sub).Gives (·.kind ≠ .identifier) :=
    gives_bind fun _ => gives_bind fun _ => gives_bind fun _ => gives_pure (by simp)
  unfold primaryExpression at run
  rw [bind_done looked] at run
  refine (?_ : Rule.Gives _ (·.kind ≠ .identifier)) state node after run
  dsimp only
  split
  · contradiction
  · exact gives_bind fun _ => gives_pure (by simp [Node.ofToken])
  · exact gives_bind fun _ => gives_pure (by simp [Node.ofToken])
  · exact stringLiteral_gives
  · exact parenthesized
  · exact gives_failExpecting _

/-- A name that a primary expression is has been the next word. -/
theorem primaryExpression_knows (sound : e.Sound state) {node : Node} {after : GrammarState}
    (run : primaryExpression one state = .done node after) : e.KnowsCallee node := by
  intro isName name named
  cases words : state.cursor.rest with
  | nil =>
    have looked : current state = .done none state := by
      change Outcome.done (state.cursor.peek? 0) state = _
      rw [Cursor.peek?_normal sound.mode, words]
      rfl
    have fails : (failExpecting .expression : Rule Node).Gives (·.kind ≠ .identifier) :=
      gives_failExpecting _
    unfold primaryExpression at run
    rw [bind_done looked] at run
    exact absurd isName (fails state node after run)
  | cons word rest =>
    have looked := EchoesAt.current_eq sound.mode words
    by_cases here : word.token.kind = .identifier
    · unfold primaryExpression at run
      rw [bind_done looked] at run
      simp only [here] at run
      rw [bind_done (advance_eq sound.mode words)] at run
      cases run
      cases named
      exact sound.names word (words ▸ List.mem_cons_self) here
    · exact absurd isName (primaryExpression_gives one here state looked run)

theorem postfixExpression_echoes (echoes : one.Echoes e two) :
    (postfixExpression one).EchoesAt e guard guard 1 1 (postfixExpression two) state := by
  intro sound
  refine EchoesAt.bind (primaryExpression_echoes echoes) (fun primary s1 run => ?_) sound
  exact suffixes_echoes echoes (primaryExpression_knows sound run)

end Rule

end OpenCLTree

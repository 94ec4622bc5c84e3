import OpenCLTree.Proofs.Echo.Rule

namespace OpenCLTree

namespace Rule

variable {α β σ : Type} [Echoed α] [Echoed β] [Echoed σ] {e : Echo} {pre mid post guard : Guard}
  {margin near gain more : Nat} {state after : GrammarState}

theorem advance_eq {word : Word} {rest : List Word} (normal : state.cursor.mode = .normal)
    (words : state.cursor.rest = word :: rest) :
    Rule.advance state = .done () (state.pass word.token rest) := by
  obtain ⟨⟨mode, taken, words⟩, scopes, reports, nesting⟩ := state
  dsimp only at normal words
  subst normal words
  simp only [Rule.advance, modify, Cursor.advance?, Word.read?_normal, Option.map_some,
    GrammarState.pass]

theorem startsTypeNameAt_eq (ahead : Nat) (state : GrammarState) : startsTypeNameAt ahead state =
    .done ((state.cursor.peek? ahead).any state.scopes.startsTypeName) state := by
  have looked : peek ahead state = .done (state.cursor.peek? ahead) state := rfl
  unfold startsTypeNameAt
  rw [bind_done looked]
  cases state.cursor.peek? ahead <;> rfl

section Brackets

variable {word : Word} {rest : List Word}

theorem keeps_stays (stays : word.token.kind.turn = .stays) :
    Keeps e guard guard (word :: rest) rest :=
  .inr fun _ => Echo.guards_stays stays

theorem keeps_opens (opens : word.token.kind.turn = .opens) :
    Keeps e guard guard.up (word :: rest) rest :=
  .inr fun _ => Echo.guards_opens opens

theorem keeps_closes (closing : word.token.kind.turn = .closes) :
    Keeps e guard.up guard (word :: rest) rest :=
  .inr fun _ => Echo.guards_closes closing

theorem keeps_ends (ends : word.token.kind.turn = .ends) (plain : e.flat = false ∨ guard = none) :
    Keeps e guard guard (word :: rest) rest :=
  .inr fun _ => Echo.guards_ends ends plain

end Brackets

namespace EchoesAt

section Peeking

variable {word : Word} {rest : List Word} {token : Token} {kind : TokenKind}

theorem peek {ahead : Nat} {next next' : Option Token → Rule α}
    (later : (next (state.cursor.peek? ahead)).EchoesAt e pre post margin gain
      (next' ((state.cursor.peek? ahead).map e.token)) state)
    (room : ahead + 1 ≤ margin + gain)
    (stops : e.Guards pre 0 state.cursor.rest → e.Reaches (ahead + 1) state) :
    (Rule.peek ahead >>= next).EchoesAt e pre post margin gain (Rule.peek ahead >>= next') state := by
  refine look (fun _ => rfl) (fun other sound agrees reaches => ?_) later room stops
  rw [← agrees.peek? sound reaches]
  rfl

theorem current {next next' : Option Token → Rule α}
    (ended : state.cursor.rest = [] →
      (next none).EchoesAt e pre post margin gain (next' none) state)
    (here : ∀ word rest, state.cursor.rest = word :: rest →
      (next (some word.token)).EchoesAt e pre post margin gain (next' (some (e.token word.token)))
        state)
    [seen : Seen 1 margin gain] :
    (Rule.current >>= next).EchoesAt e pre post margin gain (Rule.current >>= next') state := by
  intro sound
  refine peek ?_ seen.room (fun guards => guards.reaches seen.near) sound
  rw [Cursor.peek?_normal sound.mode]
  cases words : state.cursor.rest with
  | nil => exact ended words
  | cons word rest => exact here word rest words

theorem currentKind {next next' : Option TokenKind → Rule α}
    (ended : state.cursor.rest = [] →
      (next none).EchoesAt e pre post margin gain (next' none) state)
    (here : ∀ word rest, state.cursor.rest = word :: rest →
      (next (some word.token.kind)).EchoesAt e pre post margin gain
        (next' (some word.token.kind)) state)
    [seen : Seen 1 margin gain] :
    (Rule.currentKind >>= next).EchoesAt e pre post margin gain (Rule.currentKind >>= next')
      state := by
  have kinds (next : Option TokenKind → Rule α) : (Rule.currentKind >>= next) =
      (Rule.current >>= fun found => next (found.map (·.kind))) := rfl
  rw [kinds, kinds]
  refine current ended fun word rest words => ?_
  simpa only [Option.map_some, e.kind] using here word rest words

theorem check {next next' : Bool → Rule α}
    (yes : ∀ word rest, state.cursor.rest = word :: rest → word.token.kind = kind →
      (next true).EchoesAt e pre post margin gain (next' true) state)
    (no : (∀ word rest, state.cursor.rest = word :: rest → word.token.kind ≠ kind) →
      (next false).EchoesAt e pre post margin gain (next' false) state)
    [Seen 1 margin gain] :
    (Rule.check kind >>= next).EchoesAt e pre post margin gain (Rule.check kind >>= next')
      state := by
  have kinds (next : Bool → Rule α) : (Rule.check kind >>= next) =
      (Rule.currentKind >>= fun found => next (found == some kind)) := rfl
  rw [kinds, kinds]
  refine currentKind (fun ended => ?_) fun word rest words => ?_
  · exact no fun word rest words => nomatch ended.symm.trans words
  · by_cases same : word.token.kind = kind
    · rw [same, beq_self_eq_true]
      exact yes word rest words same
    · rw [show (some word.token.kind == some kind) = false from by simpa using same]
      refine no fun word' rest' words' => ?_
      obtain ⟨rfl, _⟩ := List.cons.inj (words.symm.trans words')
      exact same

/-- A rule that does nothing but take one word. -/
theorem takes {first first' : Rule α} (value : α) (words : state.cursor.rest = word :: rest)
    (here : e.Sound state → first state = .done value (state.pass word.token rest))
    (there : ∀ other, e.Sound state → e.Agrees state other → first' other =
      .done (e.image value) (other.pass (e.token word.token) (rest.map e.word ++ e.after)))
    (keeps : Keeps e pre post (word :: rest) rest) :
    first.EchoesAt e pre post 0 1 first' state := by
  intro sound
  rw [here sound]
  refine ⟨.pass words, by rwa [words], fun _ other agrees => ?_⟩
  exact ⟨_, there other sound agrees, agrees.pass word rest,
    (GrammarState.Trails.pass (agrees.words_eq words)).weaken (Nat.zero_le 1)⟩

/-- A rule that takes one word before it goes on. -/
theorem take {γ : Type} {first first' : Rule γ} {value value' : γ} {next next' : γ → Rule α}
    (words : state.cursor.rest = word :: rest)
    (here : e.Sound state → first state = .done value (state.pass word.token rest))
    (there : ∀ other, e.Sound state → e.Agrees state other →
      first' other = .done value' (other.pass (e.token word.token) (rest.map e.word ++ e.after)))
    (keeps : Keeps e pre mid (word :: rest) rest)
    (later : (next value).EchoesAt e mid post margin (gain - 1) (next' value')
      (state.pass word.token rest))
    [mid.Covers pre] [mid.Covers post] :
    (first >>= next).EchoesAt e pre post margin gain (first' >>= next') state := by
  let one : Rule Unit := fun _ => .done () (state.pass word.token rest)
  let two : Rule Unit := fun other => .done () (other.pass (e.token word.token) (rest.map e.word ++ e.after))
  have echoes : one.EchoesAt e pre mid 0 1 two state :=
    takes () words (fun _ => rfl) (fun _ _ _ => rfl) keeps
  have whole : (one >>= fun _ => next value).EchoesAt e pre post margin gain
      (two >>= fun _ => next' value') state := by
    refine bind echoes fun _ after run => ?_
    cases run
    exact later
  refine whole.congr (fun sound => ?_) fun other sound agrees => ?_
  · rw [bind_done (here sound)]
    rfl
  · rw [bind_done (there other sound agrees)]
    rfl

/-- Takes the word that a rule has looked at. -/
theorem advance {next next' : Unit → Rule α} (words : state.cursor.rest = word :: rest)
    (keeps : Keeps e pre mid (word :: rest) rest)
    (later : (next ()).EchoesAt e mid post margin (gain - 1) (next' ())
      (state.pass word.token rest))
    [mid.Covers pre] [mid.Covers post] :
    (Rule.advance >>= next).EchoesAt e pre post margin gain (Rule.advance >>= next') state :=
  take words (fun sound => advance_eq sound.mode words)
    (fun _ sound agrees => advance_eq (agrees.mode.trans sound.mode) (agrees.words_eq words))
    keeps later

/-- Takes a word of one kind if it comes next. -/
theorem accept {next next' : Option Token → Rule α}
    (keeps : ∀ word rest, state.cursor.rest = word :: rest → word.token.kind = kind →
      Keeps e pre mid (word :: rest) rest)
    (found : ∀ word rest, state.cursor.rest = word :: rest → word.token.kind = kind →
      (next (some word.token)).EchoesAt e mid post margin (gain - 1)
        (next' (some (e.token word.token))) (state.pass word.token rest))
    (missing : (∀ word rest, state.cursor.rest = word :: rest → word.token.kind ≠ kind) →
      (next none).EchoesAt e pre post margin gain (next' none) state)
    [Seen 1 margin gain] [mid.Covers pre] [mid.Covers post] :
    (Rule.accept kind >>= next).EchoesAt e pre post margin gain (Rule.accept kind >>= next')
      state := by
  unfold Rule.accept
  rw [bind_assoc, bind_assoc]
  refine current (fun ended => ?_) fun word rest words => ?_
  · exact missing fun word rest words => nomatch ended.symm.trans words
  · dsimp only
    by_cases same : word.token.kind = kind
    · rw [if_pos same, if_pos ((e.kind _).trans same), bind_assoc, bind_assoc]
      exact advance words (keeps word rest words same) (found word rest words same)
    · rw [if_neg same, if_neg (by rwa [e.kind])]
      refine missing fun word' rest' words' => ?_
      obtain ⟨rfl, _⟩ := List.cons.inj (words.symm.trans words')
      exact same

theorem current_eq (normal : state.cursor.mode = .normal) (words : state.cursor.rest = word :: rest) :
    Rule.current state = .done (some word.token) state := by
  change Outcome.done (state.cursor.peek? 0) state = _
  rw [Cursor.peek?_normal normal, words]
  rfl

theorem accept_found (normal : state.cursor.mode = .normal)
    (words : state.cursor.rest = word :: rest) (same : word.token.kind = kind) :
    Rule.accept kind state = .done (some word.token) (state.pass word.token rest) := by
  unfold Rule.accept
  rw [bind_done (current_eq normal words)]
  simp only [if_pos same]
  exact bind_done (advance_eq normal words)

theorem expect_eq (normal : state.cursor.mode = .normal) (words : state.cursor.rest = word :: rest)
    (same : word.token.kind = kind) :
    Rule.expect kind state = .done word.token (state.pass word.token rest) := by
  unfold Rule.expect
  exact bind_done (accept_found normal words same)

/-- Takes the word of one kind that must come next. -/
theorem expect (keeps : ∀ word rest, word.token.kind = kind → Keeps e pre post (word :: rest) rest) :
    (Rule.expect kind).EchoesAt e pre post 0 1 (Rule.expect kind) state := by
  by_cases found : ∃ word rest, state.cursor.rest = word :: rest ∧ word.token.kind = kind
  · obtain ⟨word, rest, words, same⟩ := found
    refine takes _ words (fun sound => expect_eq sound.mode words same) (fun other sound agrees => ?_)
      (keeps word rest same)
    exact expect_eq (agrees.mode.trans sound.mode) (agrees.words_eq words) ((e.kind _).trans same)
  · unfold Rule.expect
    have never (word : Word) (rest : List Word) (words : state.cursor.rest = word :: rest)
        (same : word.token.kind = kind) {claim : Prop} : claim :=
      absurd ⟨word, rest, words, same⟩ found
    exact accept
      (fun word rest words same =>
        (never word rest words same : Keeps e pre (some 0) (word :: rest) rest))
      (fun word rest words same => never word rest words same) (fun _ => failExpecting _ _)

theorem accept_missing (normal : state.cursor.mode = .normal)
    (missing : ∀ word rest, state.cursor.rest = word :: rest → word.token.kind ≠ kind) :
    Rule.accept kind state = .done none state := by
  have looked : Rule.current state = .done (state.cursor.peek? 0) state := rfl
  unfold Rule.accept
  rw [bind_done looked, Cursor.peek?_normal normal]
  cases words : state.cursor.rest with
  | nil => rfl
  | cons word rest =>
    have other := missing word rest words
    simp only [List.getElem?_cons_zero, Option.map_some, if_neg other]
    rfl

/-- Rules that fail at once where a word of one kind does not come next. -/
theorem failsBefore (kind : TokenKind) {one two : Rule α} (expected : Expected)
    (fails : ∀ state, state.cursor.mode = .normal →
      (∀ word rest, state.cursor.rest = word :: rest → word.token.kind ≠ kind) →
      one state = .failed (state.unexpected expected) state)
    (fails' : ∀ state, state.cursor.mode = .normal →
      (∀ word rest, state.cursor.rest = word :: rest → word.token.kind ≠ kind) →
      two state = .failed (state.unexpected expected) state)
    (missing : ∀ word rest, state.cursor.rest = word :: rest → word.token.kind ≠ kind) :
    one.EchoesAt e pre post margin gain two state := by
  intro sound
  rw [fails state sound.mode missing]
  refine ⟨.refl state, fun guards => ⟨guards.base, fun other agrees => ?_⟩⟩
  have reaches := guards.reaches (Nat.le_refl 1)
  have missing' : ∀ word rest, other.cursor.rest = word :: rest → word.token.kind ≠ kind := by
    intro word' rest' words'
    cases words : state.cursor.rest with
    | nil =>
      have none : e.after = [] := by
        rcases reaches with none | enough
        · exact none
        · simp [GrammarState.remaining, words] at enough
      rw [agrees.rest, words, none] at words'
      cases words'
    | cons word rest =>
      obtain ⟨rfl, _⟩ := List.cons.inj ((agrees.words_eq words).symm.trans words')
      rw [Echo.word_token, e.kind]
      exact missing word rest words
  exact ⟨_, other, fails' other (agrees.mode.trans sound.mode) missing',
    agrees.late sound reaches expected, agrees, .refl other⟩

omit [Echoed α] in
theorem expect_missing {next : Token → Rule α} (normal : state.cursor.mode = .normal)
    (missing : ∀ word rest, state.cursor.rest = word :: rest → word.token.kind ≠ kind) :
    (Rule.expect kind >>= next) state = .failed (state.unexpected (.token kind)) state := by
  unfold Rule.expect
  rw [bind_assoc, bind_done (accept_missing normal missing)]
  exact bind_failed (failExpecting_eq _ state)

theorem expect_found {token : Token} (normal : state.cursor.mode = .normal)
    (run : Rule.expect kind state = .done token after) :
    ∃ word rest, state.cursor.rest = word :: rest ∧ word.token.kind = kind := by
  by_contra none
  have fails : (Rule.expect kind >>= pure) state = .failed (state.unexpected (.token kind)) state :=
    expect_missing normal fun word rest words same => none ⟨word, rest, words, same⟩
  rw [bind_done run] at fails
  cases fails

theorem expectMissing {next next' : Token → Rule α}
    (missing : ∀ word rest, state.cursor.rest = word :: rest → word.token.kind ≠ kind) :
    (Rule.expect kind >>= next).EchoesAt e pre post margin gain (Rule.expect kind >>= next')
      state :=
  failsBefore kind (.token kind) (fun _ => expect_missing) (fun _ => expect_missing) missing

theorem expectOpens (opens : kind.turn = .opens) :
    (Rule.expect kind).EchoesAt e guard guard.up 0 1 (Rule.expect kind) state :=
  expect fun _ _ same => keeps_opens (same ▸ opens)

theorem expectCloses (closing : kind.turn = .closes) :
    (Rule.expect kind).EchoesAt e guard.up guard 0 1 (Rule.expect kind) state :=
  expect fun _ _ same => keeps_closes (same ▸ closing)

theorem expectStays (stays : kind.turn = .stays) :
    (Rule.expect kind).EchoesAt e guard guard 0 1 (Rule.expect kind) state :=
  expect fun _ _ same => keeps_stays (same ▸ stays)

theorem expectEnds (plain : e.flat = false ∨ guard = none) :
    (Rule.expect (.punct .semicolon)).EchoesAt e guard guard 0 1 (Rule.expect (.punct .semicolon))
      state :=
  expect fun _ _ same => keeps_ends (same ▸ rfl) plain

/-- An opening brace, which a flat stream does not have. -/
theorem expectBrace {next next' : Token → Rule α}
    (later : e.flat = false → ∀ word rest, state.cursor.rest = word :: rest →
      (next word.token).EchoesAt e guard.up post margin (gain - 1) (next' (e.token word.token))
        (state.pass word.token rest))
    [guard.up.Covers post] :
    (Rule.expect (.punct .leftBrace) >>= next).EchoesAt e guard post margin gain
      (Rule.expect (.punct .leftBrace) >>= next') state := by
  by_cases found : ∃ word rest, state.cursor.rest = word :: rest ∧
      word.token.kind = .punct .leftBrace
  · obtain ⟨word, rest, words, brace⟩ := found
    intro sound
    have folded : e.flat = false := by
      by_contra flat
      have here : word ∈ state.cursor.rest := words ▸ List.mem_cons_self
      exact (sound.flat (Bool.not_eq_false _ ▸ flat) word here).1 brace
    exact take words (fun sound => expect_eq sound.mode words brace)
      (fun other sound agrees =>
        expect_eq (agrees.mode.trans sound.mode) (agrees.words_eq words) ((e.kind _).trans brace))
      (keeps_opens (brace ▸ rfl)) (later folded word rest words) sound
  · exact expectMissing fun word rest words same => found ⟨word, rest, words, same⟩

/-- Takes a word that stands in no bracket's way if it comes next. -/
theorem acceptStays {next next' : Option Token → Rule α} (stays : kind.turn = .stays)
    (found : ∀ word rest, state.cursor.rest = word :: rest → word.token.kind = kind →
      (next (some word.token)).EchoesAt e guard post margin (gain - 1)
        (next' (some (e.token word.token))) (state.pass word.token rest))
    (missing : (∀ word rest, state.cursor.rest = word :: rest → word.token.kind ≠ kind) →
      (next none).EchoesAt e guard post margin gain (next' none) state)
    [Seen 1 margin gain] [guard.Covers post] :
    (Rule.accept kind >>= next).EchoesAt e guard post margin gain (Rule.accept kind >>= next')
      state :=
  accept (fun _ _ _ same => keeps_stays (same ▸ stays)) found missing

/-- Takes a word if it comes next, and with it all there is. -/
theorem acceptLast {next next' : Option Token → Rule α} (form : Token → α)
    (found : ∀ token, next (some token) = pure (form token) ∧
      next' (some (e.token token)) = pure (e.image (form token)))
    (missing : (∀ word rest, state.cursor.rest = word :: rest → word.token.kind ≠ kind) →
      (next none).EchoesAt e guard none margin 1 (next' none) state) :
    (Rule.accept kind >>= next).EchoesAt e guard none margin 1 (Rule.accept kind >>= next')
      state := by
  by_cases here : ∃ word rest, state.cursor.rest = word :: rest ∧ word.token.kind = kind
  · obtain ⟨word, rest, words, same⟩ := here
    have last : (Rule.accept kind >>= next).EchoesAt e guard none 0 1 (Rule.accept kind >>= next')
        state := by
      refine takes (form word.token) words (fun sound => ?_) (fun other sound agrees => ?_) (.inl rfl)
      · rw [bind_done (accept_found sound.mode words same), (found _).1]
        rfl
      · rw [bind_done (accept_found (agrees.mode.trans sound.mode) (agrees.words_eq words)
          ((e.kind _).trans same)), Echo.word_token, (found _).2]
        rfl
    exact last.weaken (Nat.zero_le _) (Nat.le_refl 1)
  · have never (word : Word) (rest : List Word) (words : state.cursor.rest = word :: rest)
        (same : word.token.kind = kind) {claim : Prop} : claim :=
      absurd ⟨word, rest, words, same⟩ here
    have none := missing fun word rest words same => never word rest words same
    exact accept
      (fun word rest words same =>
        (never word rest words same : Keeps e guard (some 0) (word :: rest) rest))
      (fun word rest words same => never word rest words same) fun _ => none

/-- A flat stream has no braces. -/
theorem noBrace {one two : Rule α} (flat : e.flat = true) (words : state.cursor.rest = word :: rest)
    (brace : word.token.kind = .punct .leftBrace) :
    one.EchoesAt e pre post margin gain two state :=
  fun sound => absurd brace (sound.flat flat word (words ▸ List.mem_cons_self)).1

end Peeking

section Changing

/-- A change of the state that leaves the place as it is. -/
theorem modify {change change' : GrammarState → GrammarState}
    (trails : ∀ state, GrammarState.Trails 0 state (change state))
    (trails' : ∀ state, GrammarState.Trails 0 state (change' state))
    (same : (change state).cursor.rest = state.cursor.rest)
    (agrees : ∀ other, e.Agrees state other → e.Agrees (change state) (change' other)) :
    (Rule.modify change).EchoesAt e guard guard 0 0 (Rule.modify change') state := by
  intro _
  refine ⟨trails state, same.symm ▸ .refl e guard _, fun _ other others => ?_⟩
  exact ⟨change' other, rfl, agrees other others, trails' other⟩

theorem declare (name : String) (sort : NameSort) :
    (Rule.declare name sort).EchoesAt e guard guard 0 0 (Rule.declare name sort) state := by
  have trails (state : GrammarState) :
      state.Trails 0 { state with scopes := state.scopes.declare name sort } :=
    { GrammarState.Trails.refl state with scopes := Scopes.since_declare _ _ _ }
  exact modify trails trails rfl fun _ agrees => agrees.declare name sort

theorem report (error : ParseError) {error' : ParseError} (late : e.Late error') :
    (Rule.report error).EchoesAt e guard guard 0 0 (Rule.report error') state :=
  modify (.report error) (.report error') rfl fun _ agrees => agrees.report error late

end Changing

section Scoping

variable {word : Word} {rest : List Word}

/-- Asks the scopes about a word that comes next. -/
theorem startsType {next next' : Bool → Rule α} (words : state.cursor.rest = word :: rest)
    (later : (next (state.scopes.startsType word.token)).EchoesAt e pre post margin gain
      (next' (state.scopes.startsType word.token)) state) :
    (Rule.startsType word.token >>= next).EchoesAt e pre post margin gain
      (Rule.startsType (e.token word.token) >>= next') state := by
  refine look (fun _ => rfl) (fun other sound agrees (_ : e.Reaches 0 state) => ?_) later
    (Nat.zero_le _) fun guards => guards.reaches (Nat.zero_le 1)
  have known : e.Knows word.token := sound.names word (words ▸ List.mem_cons_self)
  exact congrArg (Outcome.done · other) (agrees.startsType known)

theorem startsTypeNameAt {ahead : Nat} {next next' : Bool → Rule α}
    (later : (next ((state.cursor.peek? ahead).any state.scopes.startsTypeName)).EchoesAt e pre post
      margin gain (next' ((state.cursor.peek? ahead).any state.scopes.startsTypeName)) state)
    (room : ahead + 1 ≤ margin + gain)
    (stops : e.Guards pre 0 state.cursor.rest → e.Reaches (ahead + 1) state) :
    (Rule.startsTypeNameAt ahead >>= next).EchoesAt e pre post margin gain
      (Rule.startsTypeNameAt ahead >>= next') state := by
  refine look (fun _ => startsTypeNameAt_eq ahead state) (fun other sound agrees reaches => ?_) later
    room stops
  rw [startsTypeNameAt_eq, agrees.peek? sound reaches]
  cases found : state.cursor.peek? ahead with
  | none => rfl
  | some token => exact congrArg (Outcome.done · other) (agrees.startsTypeName (sound.knows found))

end Scoping

section Enclosing

variable {one two whole whole' : Rule α} {opened closed : GrammarState → GrammarState}

/-- Two changes of a state around a rule that touch neither its place nor its reports. -/
structure Encloses (e : Echo) (opened closed : GrammarState → GrammarState) : Prop where
  opens : ∀ state, (opened state).cursor = state.cursor ∧ (opened state).reports = state.reports
  closes : ∀ state, (closed state).cursor = state.cursor ∧ (closed state).reports = state.reports
  inside : ∀ state other, e.Agrees state other → e.Agrees (opened state) (opened other)
  outside : ∀ state other, e.Agrees state other → e.Agrees (closed state) (closed other)
  trails : ∀ gain state after, (opened state).Trails gain after → state.Trails gain (closed after)

/-- A rule between two such changes echoes as the rule does. -/
theorem enclosed (encloses : Encloses e opened closed)
    (echoes : one.EchoesAt e pre post margin gain two (opened state)) :
    (Rule.modify opened >>= fun _ => one.closing closed).EchoesAt e pre post margin gain
      (Rule.modify opened >>= fun _ => two.closing closed) state := by
  have cursor := (encloses.opens state).1
  have reports := (encloses.opens state).2
  intro sound
  have inside : (Rule.modify opened >>= fun _ => one.closing closed) state =
      one.closing closed (opened state) := rfl
  rw [inside]
  unfold closing
  cases run : one (opened state) with
  | exhausted => trivial
  | failed error after =>
    obtain ⟨trails, follows⟩ := echoes.failed (sound.ofCursor cursor) run
    refine ⟨encloses.trails _ _ _ trails, fun guards => ?_⟩
    rw [← cursor] at guards
    obtain ⟨guarded, follows⟩ := follows guards
    rw [← (encloses.closes after).1] at guarded
    refine ⟨guarded, fun other agrees => ?_⟩
    obtain ⟨error', last, run', late, agrees', trails'⟩ := follows _ (encloses.inside _ _ agrees)
    refine ⟨error', closed last, ?_, late, encloses.outside _ _ agrees',
      encloses.trails _ _ _ trails'⟩
    change two.closing closed (opened other) = _
    rw [closing, run']
  | done value after =>
    obtain ⟨trails, keeps, follows⟩ := echoes.done (sound.ofCursor cursor) run
    rw [cursor, ← (encloses.closes after).1] at keeps
    refine ⟨encloses.trails _ _ _ trails, keeps, fun clear other agrees => ?_⟩
    have clear' : Clear e post margin (opened state) after := by
      unfold Clear GrammarState.remaining at clear ⊢
      rwa [(encloses.closes after).1, (encloses.closes after).2, ← reports] at clear
    obtain ⟨last, run', agrees', trails'⟩ := follows clear' _ (encloses.inside _ _ agrees)
    refine ⟨closed last, ?_, encloses.outside _ _ agrees', encloses.trails _ _ _ trails'⟩
    change two.closing closed (opened other) = _
    rw [closing, run']

theorem encloses_nested :
    Encloses e (fun state => { state with nesting := state.nesting + 1 })
      fun state => { state with nesting := state.nesting - 1 } where
  opens _ := ⟨rfl, rfl⟩
  closes _ := ⟨rfl, rfl⟩
  inside _ _ agrees := { agrees with nesting := congrArg (· + 1) agrees.nesting }
  outside _ _ agrees := { agrees with nesting := congrArg (· - 1) agrees.nesting }
  trails _ _ _ trails := { trails with nesting := congrArg (· - 1) trails.nesting }

theorem encloses_scope :
    Encloses e (fun state => { state with scopes := state.scopes.enter })
      fun state => { state with scopes := state.scopes.leave } where
  opens _ := ⟨rfl, rfl⟩
  closes _ := ⟨rfl, rfl⟩
  inside _ _ agrees := { agrees with layers := .cons (fun _ _ => rfl) agrees.layers }
  outside state other agrees := by
    refine { agrees with layers := ?_ }
    have layers := agrees.layers
    simp only [Scopes.layers_leave]
    generalize state.scopes.layers = inner at layers ⊢
    generalize other.scopes.layers = inner' at layers ⊢
    cases layers with
    | nil => exact .nil
    | cons here outside =>
      cases outside with
      | nil => exact .cons here .nil
      | cons next outside => exact .cons next outside
  trails _ _ _ trails := { trails with
    scopes := ((Scopes.since_enter _).trans trails.scopes).trans (Scopes.since_leave _) }

/-- A rule one level deeper. -/
theorem nested (echoes : one.EchoesAt e pre post margin gain two
      { state with nesting := state.nesting + 1 }) :
    (Rule.nested one).EchoesAt e pre post margin gain (Rule.nested two) state := by
  by_cases deep : nestingLimit ≤ state.nesting
  · refine congr (failExpecting .shallowerNesting .shallowerNesting) (fun _ => ?_)
      fun other _ agrees => ?_
    · change (if nestingLimit ≤ state.nesting then _ else _ : Rule α) state = _
      rw [if_pos deep]
    · change (if nestingLimit ≤ other.nesting then _ else _ : Rule α) other = _
      rw [agrees.nesting, if_pos deep]
  · refine congr (enclosed encloses_nested echoes) (fun _ => ?_) fun other _ agrees => ?_
    · change (if nestingLimit ≤ state.nesting then _ else _ : Rule α) state = _
      rw [if_neg deep]
    · change (if nestingLimit ≤ other.nesting then _ else _ : Rule α) other = _
      rw [agrees.nesting, if_neg deep]

theorem inScope (echoes : one.EchoesAt e pre post margin gain two
      { state with scopes := state.scopes.enter }) :
    (Rule.inScope one).EchoesAt e pre post margin gain (Rule.inScope two) state :=
  enclosed encloses_scope echoes

end Enclosing

end EchoesAt

end Rule

end OpenCLTree

import OpenCLTree.Proofs.Grammar.Meets
import OpenCLTree.Proofs.Tree.MapSpan

namespace OpenCLTree

/-- What a rule that succeeds has to know of a state: the tokens ahead, without their places, the
names in scope, the errors reported so far, and the nesting. -/
structure Scene where
  ahead : List Token
  scopes : Scopes
  reports : List ParseError
  nesting : Nat

namespace Scene

def before (scene : Scene) (tokens : List Token) : Scene :=
  { scene with ahead := tokens }

def deepen (scene : Scene) : Scene :=
  { scene with nesting := scene.nesting + 1 }

def mapScopes (scene : Scene) (change : Scopes → Scopes) : Scene :=
  { scene with scopes := change scene.scopes }

end Scene

/-- Words that spell some tokens, none of them together with the next one. -/
structure Word.Spell (words : List Word) (tokens : List Token) : Prop where
  tokens : words.map (·.token.unplaced) = tokens
  alone : ∀ word ∈ words, word.accessor = none

namespace Word.Spell

variable {words : List Word} {token : Token} {tokens : List Token}

theorem read? (mode : LexMode) (spell : Spell words (token :: tokens)) :
    ∃ found rest, Word.read? mode words = some (found, rest) ∧ found.unplaced = token ∧
      Spell rest tokens := by
  obtain ⟨same, alone⟩ := spell
  cases words with
  | nil => cases same
  | cons word rest =>
    obtain ⟨here, later⟩ := List.cons.inj same
    obtain ⟨single, others⟩ := List.forall_mem_cons.mp alone
    exact ⟨word.token, rest, by simp [Word.read?, single], here, later, others⟩

theorem peek? (mode : LexMode) (spell : Spell words tokens) (ahead : Nat) :
    (Word.peek? mode ahead words).map (·.unplaced) = tokens[ahead]? := by
  induction ahead generalizing words tokens with
  | zero =>
    cases tokens with
    | nil =>
      rw [List.map_eq_nil_iff.mp spell.tokens]
      rfl
    | cons token tokens =>
      obtain ⟨found, rest, read, rfl, _⟩ := spell.read? mode
      simp [Word.peek?, read]
  | succ ahead ih =>
    cases tokens with
    | nil =>
      rw [List.map_eq_nil_iff.mp spell.tokens]
      rfl
    | cons token tokens =>
      obtain ⟨found, rest, read, rfl, later⟩ := spell.read? mode
      rw [Word.peek?, read, Option.bind_some, ih later, List.getElem?_cons_succ]

end Word.Spell

/-- A state that looks like a scene. -/
structure GrammarState.Shows (state : GrammarState) (scene : Scene) : Prop where
  mode : state.cursor.mode = .normal
  spell : Word.Spell state.cursor.rest scene.ahead
  scopes : state.scopes = scene.scopes
  reports : state.reports = scene.reports
  nesting : state.nesting = scene.nesting

theorem GrammarState.Shows.peek? {state : GrammarState} {scene : Scene} (shows : state.Shows scene)
    (ahead : Nat) : (state.cursor.peek? ahead).map (·.unplaced) = scene.ahead[ahead]? :=
  shows.spell.peek? _ ahead

namespace Rule

variable {α β σ : Type} {scene before middle after : Scene} {token : Token} {rest : List Token}

/-- A rule that succeeds wherever one scene shows, and leads to another scene. -/
def Parses (rule : Rule α) (before after : Scene) (holds : α → Prop) : Prop :=
  ∀ state : GrammarState, state.Shows before →
    rule.Meets state (fun value last => holds value ∧ last.Shows after) fun _ _ => False

theorem Parses.mono {rule : Rule α} {holds holds' : α → Prop} (parses : rule.Parses before after holds)
    (weaker : ∀ value, holds value → holds' value) : rule.Parses before after holds' :=
  fun state shows => (parses state shows).mono
    (fun value _ outcome => ⟨weaker value outcome.1, outcome.2⟩) fun _ _ never => never

theorem parses_pure {value : α} {holds : α → Prop} (here : holds value) :
    (pure value : Rule α).Parses scene scene holds :=
  fun _ shows => ⟨here, shows⟩

theorem Parses.bind {rule : Rule α} {next : α → Rule β} {holds : α → Prop} {holds' : β → Prop}
    (first : rule.Parses before middle holds)
    (second : ∀ value, holds value → (next value).Parses middle after holds') :
    (rule >>= next).Parses before after holds' := by
  intro state shows
  rw [meets_bind]
  exact (first state shows).mono (fun value last outcome => second value outcome.1 last outcome.2)
    fun _ _ never => never

theorem Parses.some {rule : Rule α} {holds : α → Prop} (parses : rule.Parses before after holds) :
    (do pure (some (← rule))).Parses before after fun found =>
      ∃ value, found = Option.some value ∧ holds value :=
  parses.bind fun value here => parses_pure ⟨value, rfl, here⟩

theorem parses_scopes : scopes.Parses scene scene (· = scene.scopes) :=
  fun _ shows => ⟨shows.scopes, shows⟩

theorem parses_peek (ahead : Nat) :
    (peek ahead).Parses scene scene fun found => found.map (·.unplaced) = scene.ahead[ahead]? :=
  fun _ shows => ⟨shows.peek? ahead, shows⟩

theorem parses_current : current.Parses scene scene fun found =>
    found.map (·.unplaced) = scene.ahead.head? := by
  rw [List.head?_eq_getElem?]
  exact parses_peek 0

theorem parses_currentKind :
    currentKind.Parses scene scene (· = scene.ahead.head?.map (·.kind)) := by
  refine parses_current.bind fun found same => parses_pure ?_
  rw [← same, Option.map_map]
  rfl

theorem parses_check (kind : TokenKind) :
    (check kind).Parses scene scene (· = (scene.ahead.head?.map (·.kind) == some kind)) :=
  parses_currentKind.bind fun _ same => parses_pure (same ▸ rfl)

theorem parses_startsType (token : Token) :
    (startsType token).Parses scene scene (· = scene.scopes.startsType token) :=
  fun _ shows => ⟨congrArg (·.startsType token) shows.scopes, shows⟩

theorem parses_startsTypeNameAt (ahead : Nat) : (startsTypeNameAt ahead).Parses scene scene
    (· = scene.ahead[ahead]?.any scene.scopes.startsTypeName) := by
  intro state shows
  refine (meets_startsTypeNameAt ahead).mpr ⟨?_, shows⟩
  rw [← shows.peek?, ← shows.scopes, Option.any_map]
  rfl

/-- The current token, where there is one. -/
theorem parses_token : current.Parses (scene.before (token :: rest)) (scene.before (token :: rest))
    fun found => ∃ here, found = some here ∧ here.unplaced = token :=
  parses_current.mono fun _ same => Option.map_eq_some_iff.mp same

/-- No token of a scene reads otherwise together with the next one. -/
theorem parses_currentIn (mode : LexMode) :
    (inMode mode current).Parses scene scene fun found =>
      found.map (·.unplaced) = scene.ahead.head? := by
  intro state shows
  unfold inMode setMode
  simp only [meets_bind, meets_get, meets_modify, meets_closing, meets_current]
  rw [List.head?_eq_getElem?]
  exact ⟨shows.spell.peek? mode 0, shows.mode, shows.spell, shows.scopes, shows.reports, shows.nesting⟩

theorem parses_tokenIn (mode : LexMode) :
    (inMode mode current).Parses (scene.before (token :: rest)) (scene.before (token :: rest))
      fun found => ∃ here, found = some here ∧ here.unplaced = token :=
  (parses_currentIn mode).mono fun _ same => Option.map_eq_some_iff.mp same

theorem parses_advance :
    advance.Parses (scene.before (token :: rest)) (scene.before rest) fun _ => True := by
  intro state shows
  obtain ⟨found, words, read, _, later⟩ := shows.spell.read? state.cursor.mode
  refine ⟨trivial, ?_⟩
  simp only [Cursor.advance?, read, Option.map_some]
  exact ⟨shows.mode, later, shows.scopes, shows.reports, shows.nesting⟩

theorem parses_accept {kind : TokenKind} (same : token.kind = kind) :
    (accept kind).Parses (scene.before (token :: rest)) (scene.before rest) fun found =>
      ∃ here, found = some here ∧ here.unplaced = token := by
  refine parses_token.bind ?_
  rintro _ ⟨here, rfl, rfl⟩
  have same : here.kind = kind := same
  simp only [same, if_true]
  exact parses_advance.bind fun _ _ => parses_pure ⟨here, rfl, rfl⟩

theorem parses_accept_none {kind : TokenKind} (other : scene.ahead.head?.map (·.kind) ≠ some kind) :
    (accept kind).Parses scene scene (· = none) := by
  refine parses_current.bind fun found same => ?_
  cases found with
  | none => exact parses_pure rfl
  | some token =>
    rw [← same] at other
    have other : token.kind ≠ kind := fun equal => other (congrArg some equal)
    simp only [other, if_false]
    exact parses_pure rfl

theorem parses_expect {kind : TokenKind} (same : token.kind = kind) :
    (expect kind).Parses (scene.before (token :: rest)) (scene.before rest) (·.unplaced = token) := by
  refine (parses_accept same).bind ?_
  rintro _ ⟨here, rfl, unplaced⟩
  exact parses_pure unplaced

theorem Parses.nested {rule : Rule α} {holds : α → Prop} {tokens : List Token}
    (room : scene.nesting < nestingLimit)
    (parses : rule.Parses (scene.deepen.before tokens) (scene.deepen.before rest) holds) :
    (Rule.nested rule).Parses (scene.before tokens) (scene.before rest) holds := by
  intro state shows
  have allowed : ¬ nestingLimit ≤ state.nesting := by
    rw [shows.nesting]
    exact Nat.not_le.mpr room
  unfold Rule.nested
  simp only [meets_bind, meets_get, allowed, if_false, meets_modify, meets_closing]
  have deeper : GrammarState.Shows { state with nesting := state.nesting + 1 }
      (scene.deepen.before tokens) :=
    ⟨shows.mode, shows.spell, shows.scopes, shows.reports, congrArg (· + 1) shows.nesting⟩
  refine (parses _ deeper).mono ?_ fun _ _ never => never
  rintro value last ⟨here, shows⟩
  exact ⟨here, shows.mode, shows.spell, shows.scopes, shows.reports, congrArg (· - 1) shows.nesting⟩

theorem parses_snapshot : snapshot.Parses scene scene fun _ => True :=
  fun _ shows => ⟨trivial, shows⟩

theorem Parses.attempt {rule : Rule α} {holds : α → Prop} (parses : rule.Parses before after holds) :
    (Rule.attempt rule).Parses before after fun found => ∃ value, found = .ok value ∧ holds value := by
  intro state shows
  rw [meets_attempt]
  refine (parses state shows).mono ?_ fun _ _ never => never.elim
  rintro value last ⟨here, shows⟩
  exact ⟨⟨value, rfl, here⟩, shows⟩

theorem parses_mapScopes {tokens : List Token} (change : Scopes → Scopes) :
    (mapScopes change).Parses (scene.before tokens) ((scene.mapScopes change).before tokens)
      fun _ => True :=
  fun _ shows => ⟨trivial, shows.mode, shows.spell, congrArg change shows.scopes, shows.reports,
    shows.nesting⟩

theorem Parses.inScope {rule : Rule α} {holds : α → Prop} {tokens : List Token}
    (parses : rule.Parses ((scene.mapScopes Scopes.enter).before tokens) (after.before rest) holds) :
    (Rule.inScope rule).Parses (scene.before tokens) ((after.mapScopes Scopes.leave).before rest)
      holds := by
  refine (parses_mapScopes Scopes.enter).bind fun _ _ state shows => ?_
  rw [meets_closing]
  refine (parses state shows).mono ?_ fun _ _ never => never
  rintro value last ⟨here, shows⟩
  exact ⟨here, shows.mode, shows.spell, congrArg Scopes.leave shows.scopes, shows.reports, shows.nesting⟩

/-- More rounds than a loop needs do no harm. -/
theorem meets_loopFor_le {step : σ → Rule (Sum σ α)} {fewer more : Nat} {current : σ}
    {state : GrammarState} {done : α → GrammarState → Prop} {failed : ParseError → GrammarState → Prop}
    (le : fewer ≤ more) (meets : (loopFor step fewer current).Meets state done failed) :
    (loopFor step more current).Meets state done failed := by
  induction fewer generalizing more current state with
  | zero => exact meets.elim
  | succ fewer ih =>
    obtain ⟨more, rfl⟩ := Nat.exists_eq_add_of_lt le
    rw [loopFor, meets_bind] at meets ⊢
    refine meets.mono ?_ fun _ _ stopped => stopped
    intro answer last outcome
    cases answer with
    | inl next => exact ih (by omega) outcome
    | inr result => exact outcome

/-- A round of a loop that goes on. -/
theorem Parses.loop_next {step : σ → Rule (Sum σ α)} {current : σ} {holds : α → Prop} (middle : Scene)
    (round : (step current).Parses before middle fun answer =>
      ∃ next, answer = .inl next ∧ (loop step next).Parses middle after holds)
    (shorter : middle.ahead.length < before.ahead.length) :
    (loop step current).Parses before after holds := by
  intro state shows
  unfold loop Meets
  change (loopFor step (state.remaining + 1) current).Meets state _ _
  rw [loopFor, meets_bind]
  refine (round state shows).mono ?_ fun _ _ never => never
  rintro _ last ⟨⟨next, rfl, parses⟩, shows'⟩
  have length (state : GrammarState) (scene : Scene) (shows : state.Shows scene) :
      state.remaining = scene.ahead.length := by
    rw [← shows.spell.tokens, List.length_map]
    rfl
  exact meets_loopFor_le (by rw [length _ _ shows, length _ _ shows']; omega) (parses last shows')

/-- The last round of a loop. -/
theorem Parses.loop_stop {step : σ → Rule (Sum σ α)} {current : σ} {holds : α → Prop}
    (round : (step current).Parses before after fun answer =>
      ∃ result, answer = .inr result ∧ holds result) :
    (loop step current).Parses before after holds := by
  intro state shows
  unfold loop Meets
  change (loopFor step (state.remaining + 1) current).Meets state _ _
  rw [loopFor, meets_bind]
  refine (round state shows).mono ?_ fun _ _ never => never
  rintro _ last ⟨⟨result, rfl, here⟩, shows⟩
  exact ⟨here, shows⟩

/-- The loop of `many`, after some answers. -/
def manyFrom (step : Rule (Option α)) : List α → Rule (List α) :=
  loop fun collected => do
    match ← step with
    | some value => pure (.inl (collected ++ [value]))
    | none => pure (.inr collected)

theorem many_eq (step : Rule (Option α)) : many step = manyFrom step [] :=
  rfl

theorem manyFrom_next {step : Rule (Option α)} {collected : List α} {holds' : List α → Prop}
    (holds : α → Prop) (middle : Scene)
    (round : step.Parses before middle fun found => ∃ value, found = some value ∧ holds value)
    (shorter : middle.ahead.length < before.ahead.length)
    (later : ∀ value, holds value → (manyFrom step (collected ++ [value])).Parses middle after holds') :
    (manyFrom step collected).Parses before after holds' := by
  refine Parses.loop_next middle (round.bind ?_) shorter
  rintro _ ⟨value, rfl, here⟩
  exact parses_pure ⟨_, rfl, later value here⟩

theorem manyFrom_stop {step : Rule (Option α)} {collected : List α}
    (round : step.Parses before after (· = none)) :
    (manyFrom step collected).Parses before after (· = collected) := by
  refine Parses.loop_stop (round.bind ?_)
  rintro _ rfl
  exact parses_pure ⟨collected, rfl, rfl⟩

end Rule

end OpenCLTree

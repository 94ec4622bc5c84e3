import OpenCLTree.Grammar.Grammar

namespace OpenCLTree

namespace Rule

variable {α β σ : Type} {state : GrammarState} {done : α → GrammarState → Prop}
  {failed : ParseError → GrammarState → Prop}

section Sequencing

variable {first : Rule β} {next : β → Rule α} {value : α} {error : ParseError} {after : GrammarState}

theorem bind_assoc (first : Rule σ) (second : σ → Rule β) (third : β → Rule α) :
    first >>= second >>= third = first >>= fun value => second value >>= third := by
  funext state
  change andThen (andThen first second) third state =
    andThen first (fun value => andThen (second value) third) state
  unfold andThen
  cases first state <;> rfl

theorem bind_pure (rule : Rule α) : (rule >>= pure) = rule := by
  funext state
  change andThen rule ofValue state = rule state
  unfold andThen
  cases rule state <;> rfl

theorem bind_done {found : β} (run : first state = .done found after) :
    (first >>= next) state = next found after := by
  change andThen first next state = _
  rw [andThen, run]

theorem bind_failed (run : first state = .failed error after) :
    (first >>= next) state = .failed error after := by
  change andThen first next state = _
  rw [andThen, run]

theorem bind_exhausted (run : first state = .exhausted) : (first >>= next) state = .exhausted := by
  change andThen first next state = _
  rw [andThen, run]

/-- Two rules in a row succeed only if both do. -/
theorem bind_inv (run : (first >>= next) state = .done value after) :
    ∃ found middle, first state = .done found middle ∧ next found middle = .done value after := by
  cases atFirst : first state with
  | done found middle => exact ⟨found, middle, rfl, (bind_done atFirst).symm.trans run⟩
  | failed error middle => cases (bind_failed atFirst).symm.trans run
  | exhausted => cases (bind_exhausted atFirst).symm.trans run

/-- Two rules in a row fail where the first does, or behind it where the second does. -/
theorem bind_failed_inv (run : (first >>= next) state = .failed error after) :
    first state = .failed error after ∨
      ∃ found middle, first state = .done found middle ∧ next found middle = .failed error after := by
  cases atFirst : first state with
  | done found middle => exact .inr ⟨found, middle, rfl, (bind_done atFirst).symm.trans run⟩
  | failed other middle =>
    cases (bind_failed atFirst).symm.trans run
    exact .inl rfl
  | exhausted => cases (bind_exhausted atFirst).symm.trans run

theorem attempt_done {found : β} (run : first state = .done found after) :
    attempt first state = .done (.ok found) after := by
  rw [attempt, run]

theorem attempt_failed (run : first state = .failed error after) :
    attempt first state = .done (.error error) after := by
  rw [attempt, run]

theorem attempt_exhausted (run : first state = .exhausted) : attempt first state = .exhausted := by
  rw [attempt, run]

theorem snapshot_done (state : GrammarState) :
    snapshot state = .done ⟨state.cursor, state.reports.length, state.scopes.mark⟩ state :=
  rfl

end Sequencing

/-- A rule meets two promises in a state: it is not exhausted there, it leaves what `done` says
when it succeeds, and what `failed` says when it fails. -/
def Meets (rule : Rule α) (state : GrammarState) (done : α → GrammarState → Prop)
    (failed : ParseError → GrammarState → Prop) : Prop :=
  match rule state with
  | .done value after => done value after
  | .failed error after => failed error after
  | .exhausted => False

theorem Meets.mono {rule : Rule α} {done' : α → GrammarState → Prop}
    {failed' : ParseError → GrammarState → Prop} (meets : rule.Meets state done failed)
    (onDone : ∀ value after, done value after → done' value after)
    (onFailed : ∀ error after, failed error after → failed' error after) :
    rule.Meets state done' failed' := by
  unfold Meets at meets ⊢
  cases run : rule state with
  | done value after => exact onDone value after (by simpa only [run] using meets)
  | failed error after => exact onFailed error after (by simpa only [run] using meets)
  | exhausted => simp only [run] at meets

theorem Meets.of_done {rule : Rule α} {value : α} {after : GrammarState}
    (meets : rule.Meets state done failed) (run : rule state = .done value after) : done value after := by
  rw [Meets, run] at meets
  exact meets

theorem Meets.of_failed {rule : Rule α} {error : ParseError} {after : GrammarState}
    (meets : rule.Meets state done failed) (run : rule state = .failed error after) :
    failed error after := by
  rw [Meets, run] at meets
  exact meets

/-- A rule that promises something ends, in one way or the other. -/
theorem Meets.ends {rule : Rule α} (meets : rule.Meets state done failed) :
    (∃ value after, rule state = .done value after ∧ done value after) ∨
      ∃ error after, rule state = .failed error after ∧ failed error after := by
  unfold Meets at meets
  cases run : rule state with
  | done value after =>
    rw [run] at meets
    exact .inl ⟨value, after, rfl, meets⟩
  | failed error after =>
    rw [run] at meets
    exact .inr ⟨error, after, rfl, meets⟩
  | exhausted => simp only [run] at meets

theorem Meets.both {rule : Rule α} {done' : α → GrammarState → Prop}
    {failed' : ParseError → GrammarState → Prop} (meets : rule.Meets state done failed)
    (meets' : rule.Meets state done' failed') :
    rule.Meets state (fun value after => done value after ∧ done' value after)
      fun error after => failed error after ∧ failed' error after := by
  unfold Meets
  rcases meets.ends with ⟨value, after, run, here⟩ | ⟨error, after, run, here⟩
  · rw [run]
    exact ⟨here, meets'.of_done run⟩
  · rw [run]
    exact ⟨here, meets'.of_failed run⟩

/-- What a rule leaves in a state is what it is run for. -/
theorem Meets.withRun {rule : Rule α} (meets : rule.Meets state done failed) :
    rule.Meets state (fun value after => rule state = .done value after ∧ done value after) failed := by
  rcases meets.ends with ⟨value, after, run, here⟩ | ⟨error, after, run, here⟩
  · rw [Meets, run]
    exact ⟨rfl, here⟩
  · rw [Meets, run]
    exact here

@[simp]
theorem meets_pure (value : α) : (pure value : Rule α).Meets state done failed ↔ done value state :=
  Iff.rfl

@[simp]
theorem meets_bind (rule : Rule β) (next : β → Rule α) :
    (rule >>= next).Meets state done failed ↔
      rule.Meets state (fun value after => (next value).Meets after done failed) failed := by
  change Meets (andThen rule next) state done failed ↔ _
  unfold Meets andThen
  cases rule state <;> rfl

@[simp]
theorem meets_fail (error : ParseError) :
    (fail error : Rule α).Meets state done failed ↔ failed error state :=
  Iff.rfl

@[simp]
theorem meets_get {done : GrammarState → GrammarState → Prop} :
    get.Meets state done failed ↔ done state state :=
  Iff.rfl

@[simp]
theorem meets_modify {done : Unit → GrammarState → Prop} (change : GrammarState → GrammarState) :
    (modify change).Meets state done failed ↔ done () (change state) :=
  Iff.rfl

theorem meets_closing (rule : Rule α) (change : GrammarState → GrammarState) :
    (rule.closing change).Meets state done failed ↔
      rule.Meets state (fun value after => done value (change after))
        fun error after => failed error (change after) := by
  unfold Meets closing
  cases rule state <;> rfl

theorem meets_attempt {done : Except ParseError α → GrammarState → Prop} (rule : Rule α) :
    rule.attempt.Meets state done failed ↔
      rule.Meets state (fun value after => done (.ok value) after)
        fun error after => done (.error error) after := by
  unfold Meets attempt
  cases rule state <;> rfl

@[simp]
theorem meets_scopes {done : Scopes → GrammarState → Prop} :
    scopes.Meets state done failed ↔ done state.scopes state :=
  Iff.rfl

@[simp]
theorem meets_peek {done : Option Token → GrammarState → Prop} (ahead : Nat) :
    (peek ahead).Meets state done failed ↔ done (state.cursor.peek? ahead) state :=
  Iff.rfl

@[simp]
theorem meets_current {done : Option Token → GrammarState → Prop} :
    current.Meets state done failed ↔ done (state.cursor.peek? 0) state :=
  Iff.rfl

@[simp]
theorem meets_currentKind {done : Option TokenKind → GrammarState → Prop} :
    currentKind.Meets state done failed ↔ done ((state.cursor.peek? 0).map (·.kind)) state :=
  Iff.rfl

@[simp]
theorem meets_check {done : Bool → GrammarState → Prop} (kind : TokenKind) :
    (check kind).Meets state done failed ↔
      done ((state.cursor.peek? 0).map (·.kind) == some kind) state :=
  Iff.rfl

@[simp]
theorem meets_atEnd {done : Bool → GrammarState → Prop} :
    atEnd.Meets state done failed ↔ done (state.cursor.peek? 0).isNone state :=
  Iff.rfl

@[simp]
theorem meets_startsType {done : Bool → GrammarState → Prop} (token : Token) :
    (startsType token).Meets state done failed ↔ done (state.scopes.startsType token) state :=
  Iff.rfl

@[simp]
theorem meets_startsTypeNameAt {done : Bool → GrammarState → Prop} (ahead : Nat) :
    (startsTypeNameAt ahead).Meets state done failed ↔
      done ((state.cursor.peek? ahead).any state.scopes.startsTypeName) state := by
  unfold startsTypeNameAt
  rw [meets_bind, meets_peek]
  cases state.cursor.peek? ahead <;> rfl

/-- The invariant rule for loops: a round that goes on keeps the invariant and leaves fewer
tokens. -/
theorem Meets.loop {step : σ → Rule (Sum σ α)} (keeps : σ → GrammarState → Prop)
    (round : ∀ current state, keeps current state →
      (step current).Meets state
        (fun answer after =>
          match answer with
          | .inl next => keeps next after ∧ after.remaining < state.remaining
          | .inr result => done result after)
        failed)
    {start : σ} (begins : keeps start state) :
    (Rule.loop step start).Meets state done failed := by
  have enough : ∀ rounds current state, keeps current state → state.remaining < rounds →
      (loopFor step rounds current).Meets state done failed := by
    intro rounds
    induction rounds with
    | zero =>
      intro current state _ fewer
      omega
    | succ rounds ih =>
      intro current state kept fewer
      unfold loopFor
      rw [meets_bind]
      refine (round current state kept).mono ?_ fun _ _ stopped => stopped
      intro answer after outcome
      cases answer with
      | inl next => exact ih next after outcome.1 (by have := outcome.2; omega)
      | inr result => exact outcome
  exact enough _ start state begins (Nat.lt_succ_self _)

end Rule

end OpenCLTree

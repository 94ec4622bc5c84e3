import OpenCLTree.Proofs.Grammar.Gives

namespace OpenCLTree

namespace Rule

variable {α β σ : Type} {state : GrammarState} {done : α → GrammarState → Prop}
  {failed : GrammarState → Prop}

/-- Where a rule leads from a state: it leaves what `done` says if it succeeds, and what `failed`
says if it fails. Nothing is said of a rule that is exhausted. -/
def Leads (rule : Rule α) (state : GrammarState) (done : α → GrammarState → Prop)
    (failed : GrammarState → Prop) : Prop :=
  match rule state with
  | .done value after => done value after
  | .failed _ after => failed after
  | .exhausted => True

theorem Leads.mono {rule : Rule α} {done' : α → GrammarState → Prop}
    {failed' : GrammarState → Prop} (leads : rule.Leads state done failed)
    (onDone : ∀ value after, done value after → done' value after)
    (onFailed : ∀ after, failed after → failed' after) : rule.Leads state done' failed' := by
  unfold Leads at leads ⊢
  cases run : rule state with
  | done value after => exact onDone value after (by simpa only [run] using leads)
  | failed error after => exact onFailed after (by simpa only [run] using leads)
  | exhausted => trivial

theorem Leads.of_done {rule : Rule α} {value : α} {after : GrammarState}
    (leads : rule.Leads state done failed) (run : rule state = .done value after) : done value after := by
  rw [Leads, run] at leads
  exact leads

theorem Leads.gives {rule : Rule α} {holds : α → Prop} (leads : rule.Leads state done failed)
    (gives : rule.Gives holds) :
    rule.Leads state (fun value after => holds value ∧ done value after) failed := by
  unfold Leads at leads ⊢
  cases run : rule state with
  | done value after => exact ⟨gives state value after run, by simpa only [run] using leads⟩
  | failed error after => simpa only [run] using leads
  | exhausted => trivial

theorem Gives.leads {rule : Rule α} {holds : α → Prop} (gives : rule.Gives holds) :
    rule.Leads state (fun value _ => holds value) fun _ => True := by
  unfold Leads
  cases run : rule state with
  | done value after => exact gives state value after run
  | failed | exhausted => trivial

/-- What two statements say of one rule holds together. -/
theorem Leads.and {rule : Rule α} {done' : α → GrammarState → Prop} {failed' : GrammarState → Prop}
    (leads : rule.Leads state done failed) (leads' : rule.Leads state done' failed') :
    rule.Leads state (fun value after => done value after ∧ done' value after)
      fun after => failed after ∧ failed' after := by
  unfold Leads at leads leads' ⊢
  cases run : rule state with
  | done value after => exact ⟨by simpa only [run] using leads, by simpa only [run] using leads'⟩
  | failed error after => exact ⟨by simpa only [run] using leads, by simpa only [run] using leads'⟩
  | exhausted => trivial

theorem leads_exhaust : (exhaust : Rule α).Leads state done failed := trivial

@[simp]
theorem leads_pure (value : α) : (pure value : Rule α).Leads state done failed ↔ done value state :=
  Iff.rfl

@[simp]
theorem leads_bind (rule : Rule β) (next : β → Rule α) :
    (rule >>= next).Leads state done failed ↔
      rule.Leads state (fun value after => (next value).Leads after done failed) failed := by
  change Leads (andThen rule next) state done failed ↔ _
  unfold Leads andThen
  cases rule state <;> rfl

/-- A rule after another of which only the values matter. -/
theorem Gives.thenLeads {rule : Rule β} {next : β → Rule α} {holds : β → Prop}
    (gives : rule.Gives holds)
    (later : ∀ value after, holds value → (next value).Leads after done fun _ => True) :
    (rule >>= next).Leads state done fun _ => True := by
  rw [leads_bind]
  exact gives.leads.mono (fun value after known => later value after known) fun _ _ => trivial

theorem leads_next {rule : Rule β} {next : β → Rule α}
    (later : ∀ value after, (next value).Leads after done fun _ => True) :
    (rule >>= next).Leads state done fun _ => True :=
  have anything : rule.Gives fun _ => True := fun _ _ _ _ => trivial
  anything.thenLeads fun value after _ => later value after

@[simp]
theorem leads_fail (error : ParseError) :
    (fail error : Rule α).Leads state done failed ↔ failed state :=
  Iff.rfl

@[simp]
theorem leads_get {done : GrammarState → GrammarState → Prop} :
    get.Leads state done failed ↔ done state state :=
  Iff.rfl

@[simp]
theorem leads_modify {done : Unit → GrammarState → Prop} (change : GrammarState → GrammarState) :
    (modify change).Leads state done failed ↔ done () (change state) :=
  Iff.rfl

theorem leads_closing (rule : Rule α) (change : GrammarState → GrammarState) :
    (rule.closing change).Leads state done failed ↔
      rule.Leads state (fun value after => done value (change after))
        fun after => failed (change after) := by
  unfold Leads closing
  cases rule state <;> rfl

theorem leads_attempt {done : Except ParseError α → GrammarState → Prop} (rule : Rule α)
    (onDone : rule.Leads state (fun value after => done (.ok value) after)
      fun after => ∀ error, done (.error error) after) :
    rule.attempt.Leads state done failed := by
  unfold Leads attempt at *
  cases run : rule state with
  | done value after => simpa only [run] using onDone
  | failed error after =>
    rw [run] at onDone
    exact onDone error
  | exhausted => trivial

@[simp]
theorem leads_scopes {done : Scopes → GrammarState → Prop} :
    scopes.Leads state done failed ↔ done state.scopes state :=
  Iff.rfl

@[simp]
theorem leads_peek {done : Option Token → GrammarState → Prop} (ahead : Nat) :
    (peek ahead).Leads state done failed ↔ done (state.cursor.peek? ahead) state :=
  Iff.rfl

@[simp]
theorem leads_current {done : Option Token → GrammarState → Prop} :
    current.Leads state done failed ↔ done (state.cursor.peek? 0) state :=
  Iff.rfl

@[simp]
theorem leads_currentKind {done : Option TokenKind → GrammarState → Prop} :
    currentKind.Leads state done failed ↔ done ((state.cursor.peek? 0).map (·.kind)) state :=
  Iff.rfl

@[simp]
theorem leads_check {done : Bool → GrammarState → Prop} (kind : TokenKind) :
    (check kind).Leads state done failed ↔
      done ((state.cursor.peek? 0).map (·.kind) == some kind) state :=
  Iff.rfl

@[simp]
theorem leads_atEnd {done : Bool → GrammarState → Prop} :
    atEnd.Leads state done failed ↔ done (state.cursor.peek? 0).isNone state :=
  Iff.rfl

@[simp]
theorem leads_startsType {done : Bool → GrammarState → Prop} (token : Token) :
    (startsType token).Leads state done failed ↔ done (state.scopes.startsType token) state :=
  Iff.rfl

@[simp]
theorem leads_startsTypeNameAt {done : Bool → GrammarState → Prop} (ahead : Nat) :
    (startsTypeNameAt ahead).Leads state done failed ↔
      done ((state.cursor.peek? ahead).any state.scopes.startsTypeName) state := by
  unfold startsTypeNameAt
  rw [leads_bind, leads_peek]
  cases state.cursor.peek? ahead <;> rfl

/-- A rule that fails because of what comes next fails where it stands. -/
theorem leads_failExpecting (expected : Expected) (here : failed state) :
    (failExpecting expected : Rule α).Leads state done failed := by
  unfold failExpecting
  rw [leads_bind, leads_current]
  cases state.cursor.peek? 0 <;> exact here

/-- The invariant rule for loops. -/
theorem Leads.loop {step : σ → Rule (Sum σ α)} (keeps : σ → GrammarState → Prop)
    (round : ∀ current state, keeps current state →
      (step current).Leads state
        (fun answer after =>
          match answer with
          | .inl next => keeps next after
          | .inr result => done result after)
        failed)
    {start : σ} (begins : keeps start state) : (Rule.loop step start).Leads state done failed := by
  have rounds : ∀ count current state, keeps current state →
      (loopFor step count current).Leads state done failed := by
    intro count
    induction count with
    | zero => exact fun _ _ _ => leads_exhaust
    | succ count ih =>
      intro current state kept
      unfold loopFor
      rw [leads_bind]
      refine (round current state kept).mono ?_ fun _ stopped => stopped
      intro answer after outcome
      cases answer with
      | inl next => exact ih next after outcome
      | inr result => exact outcome
  exact rounds _ start state begins

end Rule

end OpenCLTree

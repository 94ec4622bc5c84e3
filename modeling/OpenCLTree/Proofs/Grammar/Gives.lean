import OpenCLTree.Proofs.Grammar.Meets

namespace OpenCLTree

namespace Rule

variable {α β σ : Type} {holds : α → Prop}

/-- Whether all values of a rule, wherever it succeeds, have a property. -/
def Gives (rule : Rule α) (holds : α → Prop) : Prop :=
  ∀ state value after, rule state = .done value after → holds value

theorem Meets.gives {rule : Rule α} {state : GrammarState} {done : α → GrammarState → Prop}
    {failed : ParseError → GrammarState → Prop} (meets : rule.Meets state done failed)
    (gives : rule.Gives holds) :
    rule.Meets state (fun value after => holds value ∧ done value after) failed := by
  unfold Meets at meets ⊢
  cases run : rule state with
  | done value after => exact ⟨gives state value after run, by simpa only [run] using meets⟩
  | failed error after => simpa only [run] using meets
  | exhausted => simp only [run] at meets

theorem Gives.mono {rule : Rule α} {weaker : α → Prop} (gives : rule.Gives holds)
    (implies : ∀ value, holds value → weaker value) : rule.Gives weaker :=
  fun state value after run => implies value (gives state value after run)

theorem gives_pure {value : α} (holdsHere : holds value) : (pure value : Rule α).Gives holds := by
  intro state other after run
  cases run
  exact holdsHere

theorem gives_fail (error : ParseError) : (fail error : Rule α).Gives holds := by
  intro state value after run
  cases run

theorem Gives.bind {rule : Rule β} {next : β → Rule α} {first : β → Prop}
    (gives : rule.Gives first) (goesOn : ∀ value, first value → (next value).Gives holds) :
    (rule >>= next).Gives holds := by
  intro state value after run
  obtain ⟨found, middle, atRule, run⟩ := bind_inv run
  exact goesOn found (gives state found middle atRule) middle value after run

/-- What a rule gives after another, of which nothing has to be known. -/
theorem gives_bind {rule : Rule β} {next : β → Rule α}
    (goesOn : ∀ value, (next value).Gives holds) : (rule >>= next).Gives holds :=
  have anything : rule.Gives fun _ => True := fun _ _ _ _ => trivial
  anything.bind fun value _ => goesOn value

theorem gives_failExpecting (expected : Expected) :
    (failExpecting expected : Rule α).Gives holds := by
  unfold failExpecting
  refine gives_bind fun found => ?_
  split
  · exact gives_fail _
  · exact gives_bind fun _ => gives_fail _

theorem Gives.closing {rule : Rule α} (gives : rule.Gives holds)
    (change : GrammarState → GrammarState) : (rule.closing change).Gives holds := by
  intro state value after run
  unfold Rule.closing at run
  cases atRule : rule state with
  | done found middle =>
    simp only [atRule, Outcome.done.injEq] at run
    exact run.1 ▸ gives state found middle atRule
  | failed error middle => simp [atRule] at run
  | exhausted => simp [atRule] at run

theorem Gives.nested {rule : Rule α} (gives : rule.Gives holds) : (nested rule).Gives holds := by
  unfold Rule.nested
  refine gives_bind fun state => ?_
  split
  · exact gives_failExpecting _
  · exact gives_bind fun _ => gives.closing _

/-- The rule for loops whose rounds keep a property of the value they go on with. -/
theorem gives_loop {step : σ → Rule (Sum σ α)} (keeps : σ → Prop)
    (round : ∀ current, keeps current → (step current).Gives fun answer =>
      match answer with
      | .inl next => keeps next
      | .inr result => holds result)
    {start : σ} (begins : keeps start) : (Rule.loop step start).Gives holds := by
  have rounds : ∀ count current, keeps current → (loopFor step count current).Gives holds := by
    intro count
    induction count with
    | zero =>
      intro current _ state value after run
      cases run
    | succ count ih =>
      intro current kept
      refine (round current kept).bind fun answer outcome => ?_
      cases answer with
      | inl next => exact ih next outcome
      | inr result => exact gives_pure outcome
  intro state value after run
  exact rounds _ start begins state value after run

theorem gives_many {step : Rule (Option α)}
    (gives : step.Gives fun found => ∀ value ∈ found, holds value) :
    (many step).Gives fun values => ∀ value ∈ values, holds value := by
  refine gives_loop (fun collected => ∀ value ∈ collected, holds value) ?_ (List.forall_mem_nil _)
  intro collected known
  refine gives.bind fun found here => ?_
  cases found with
  | none => exact gives_pure known
  | some value =>
    exact gives_pure (List.forall_mem_append.mpr ⟨known, List.forall_mem_singleton.mpr (here value rfl)⟩)

end Rule

end OpenCLTree

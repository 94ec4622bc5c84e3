import OpenCLTree.Proofs.Grammar.Gives

namespace OpenCLTree

/-- Whether an error is one that the grammar finds in a source: no ambiguous cast and none of a
token, and where something is missing at the end, with an empty span. -/
def ParseError.IsOrdinary : ParseError → Prop
  | .lexical _ | .ambiguousCast _ => False
  | .unexpectedEnd _ span => span.start = span.stop
  | .unexpectedToken .. | .duplicateQualifier .. | .missingBody .. => True

theorem ParseError.IsOrdinary.kind {error : ParseError} (ordinary : error.IsOrdinary) :
    error.kind ≠ .ambiguousCast ∧ error.kind ≠ .lexical := by
  cases error <;> first | exact ordinary.elim | exact ⟨nofun, nofun⟩

namespace GrammarState

/-- Whether all reports of a later state that an earlier one does not have are ordinary. -/
def Adds (before after : GrammarState) : Prop :=
  ∀ error ∈ after.reports, error ∈ before.reports ∨ error.IsOrdinary

variable {first second third : GrammarState}

theorem Adds.of_subset (subset : second.reports ⊆ first.reports) : first.Adds second :=
  fun _ reported => .inl (subset reported)

theorem Adds.refl (state : GrammarState) : state.Adds state :=
  .of_subset (List.Subset.refl _)

theorem Adds.trans (one : first.Adds second) (two : second.Adds third) : first.Adds third := by
  intro error reported
  rcases two error reported with earlier | ordinary
  · exact one error earlier
  · exact .inr ordinary

end GrammarState

namespace Rule

variable {α β σ : Type} {holds : α → Prop} {fails : ParseError → Prop} {rule : Rule α}

/-- What a rule ensures wherever it starts: its values have one property, the errors with which
it fails another, and all that it adds to the reports is ordinary. -/
structure Ensures (rule : Rule α) (holds : α → Prop) (fails : ParseError → Prop) : Prop where
  done : ∀ {state value after}, rule state = .done value after → holds value ∧ state.Adds after
  failed : ∀ {state error after}, rule state = .failed error after → fails error ∧ state.Adds after

/-- Whether the values of a rule have a property, and it fails with ordinary errors alone. -/
abbrev Yields (rule : Rule α) (holds : α → Prop) : Prop :=
  rule.Ensures holds ParseError.IsOrdinary

theorem Ensures.mono {weaker : α → Prop} {weakerFails : ParseError → Prop}
    (ensures : rule.Ensures holds fails) (onDone : ∀ value, holds value → weaker value)
    (onFailed : ∀ error, fails error → weakerFails error) : rule.Ensures weaker weakerFails where
  done run := (ensures.done run).imp_left (onDone _)
  failed run := (ensures.failed run).imp_left (onFailed _)

theorem Ensures.toGives (ensures : rule.Ensures holds fails) : rule.Gives holds :=
  fun _ _ _ run => (ensures.done run).1

/-- What a rule ensures of its values, and what else it gives of them. -/
theorem Ensures.gives {more : α → Prop} (ensures : rule.Ensures holds fails) (gives : rule.Gives more) :
    rule.Ensures (fun value => holds value ∧ more value) fails where
  done run := ⟨⟨(ensures.done run).1, gives _ _ _ run⟩, (ensures.done run).2⟩
  failed run := ensures.failed run

theorem ensures_pure {value : α} (holdsHere : holds value) :
    (pure value : Rule α).Ensures holds fails where
  done run := by
    cases run
    exact ⟨holdsHere, .refl _⟩
  failed run := by cases run

theorem ensures_fail {error : ParseError} (failsHere : fails error) :
    (fail error : Rule α).Ensures holds fails where
  done run := by cases run
  failed run := by
    cases run
    exact ⟨failsHere, .refl _⟩

theorem ensures_exhaust : (exhaust : Rule α).Ensures holds fails :=
  ⟨nofun, nofun⟩

theorem Ensures.bind {first : β → Prop} {rule : Rule β} {next : β → Rule α}
    (ensures : rule.Ensures first fails)
    (goesOn : ∀ value, first value → (next value).Ensures holds fails) :
    (rule >>= next).Ensures holds fails where
  done := by
    intro state value last run
    obtain ⟨found, middle, atRule, run⟩ := bind_inv run
    have here := ensures.done atRule
    have later := (goesOn found here.1).done run
    exact ⟨later.1, here.2.trans later.2⟩
  failed := by
    intro state error last run
    rcases bind_failed_inv run with atRule | ⟨found, middle, atRule, run⟩
    · exact ensures.failed atRule
    · have here := ensures.done atRule
      have later := (goesOn found here.1).failed run
      exact ⟨later.1, here.2.trans later.2⟩

/-- What a rule ensures after another of whose value nothing has to be known. -/
theorem Ensures.next {first : β → Prop} {rule : Rule β} {next : β → Rule α}
    (ensures : rule.Ensures first fails) (goesOn : ∀ value, (next value).Ensures holds fails) :
    (rule >>= next).Ensures holds fails :=
  ensures.bind fun value _ => goesOn value

/-- Trying a rule hands over the errors with which it fails. -/
theorem Ensures.attempt {anyFails : ParseError → Prop} (ensures : rule.Ensures holds fails) :
    rule.attempt.Ensures (fun result => match result with
      | .ok value => holds value
      | .error error => fails error) anyFails where
  done := by
    intro state result after run
    unfold Rule.attempt at run
    split at run <;> cases run
    · exact ensures.done ‹_›
    · exact ensures.failed ‹_›
  failed := by
    intro state error after run
    unfold Rule.attempt at run
    split at run <;> cases run

/-- A change of the state that adds no reports. -/
theorem ensures_modify {change : GrammarState → GrammarState}
    (subset : ∀ state, (change state).reports ⊆ state.reports) :
    (modify change).Ensures (fun _ => True) fails where
  done run := by
    cases run
    exact ⟨trivial, .of_subset (subset _)⟩
  failed run := by cases run

theorem Ensures.closing (ensures : rule.Ensures holds fails) (change : GrammarState → GrammarState)
    (subset : ∀ state, (change state).reports ⊆ state.reports) :
    (rule.closing change).Ensures holds fails where
  done := by
    intro state value after run
    unfold Rule.closing at run
    split at run <;> cases run
    rename_i middle atRule
    exact (ensures.done atRule).imp_right fun adds => adds.trans (.of_subset (subset middle))
  failed := by
    intro state error after run
    unfold Rule.closing at run
    split at run <;> cases run
    rename_i middle atRule
    exact (ensures.failed atRule).imp_right fun adds => adds.trans (.of_subset (subset middle))

/-- The rule for loops whose rounds keep a property of the value they go on with. -/
theorem ensures_loop {step : σ → Rule (Sum σ α)} (keeps : σ → Prop)
    (round : ∀ current, keeps current → (step current).Ensures (fun answer =>
      match answer with
      | .inl next => keeps next
      | .inr result => holds result) fails)
    {start : σ} (begins : keeps start) : (loop step start).Ensures holds fails := by
  have rounds : ∀ count current, keeps current →
      (loopFor step count current).Ensures holds fails := by
    intro count
    induction count with
    | zero => exact fun _ _ => ensures_exhaust
    | succ count ih =>
      intro current kept
      refine (round current kept).bind fun answer outcome => ?_
      cases answer with
      | inl next => exact ih next outcome
      | inr result => exact ensures_pure outcome
  exact ⟨fun run => (rounds _ start begins).done run, fun run => (rounds _ start begins).failed run⟩

theorem ensures_many {step : Rule (Option α)}
    (ensures : step.Ensures (fun found => ∀ value ∈ found, holds value) fails) :
    (many step).Ensures (fun values => ∀ value ∈ values, holds value) fails := by
  refine ensures_loop (fun collected => ∀ value ∈ collected, holds value) ?_ (List.forall_mem_nil _)
  intro collected known
  refine ensures.bind fun found here => ?_
  cases found with
  | none => exact ensures_pure known
  | some value =>
    have last : ∀ other ∈ [value], holds other := List.forall_mem_singleton.mpr (here value rfl)
    exact ensures_pure (List.forall_mem_append.mpr ⟨known, last⟩)

/-- A rule that only looks at the state. -/
theorem ensures_get : get.Ensures (fun _ => True) fails where
  done run := by
    cases run
    exact ⟨trivial, .refl _⟩
  failed run := by cases run

theorem scopes_ensures : scopes.Ensures (fun _ => True) fails :=
  ensures_get.next fun _ => ensures_pure trivial

theorem peek_ensures (ahead : Nat) : (peek ahead).Ensures (fun _ => True) fails :=
  ensures_get.next fun _ => ensures_pure trivial

theorem current_ensures : current.Ensures (fun _ => True) fails :=
  peek_ensures 0

theorem currentKind_ensures : currentKind.Ensures (fun _ => True) fails :=
  current_ensures.next fun _ => ensures_pure trivial

theorem check_ensures (kind : TokenKind) : (check kind).Ensures (fun _ => True) fails :=
  currentKind_ensures.next fun _ => ensures_pure trivial

theorem atEnd_ensures : atEnd.Ensures (fun _ => True) fails :=
  current_ensures.next fun _ => ensures_pure trivial

theorem startsType_ensures (token : Token) : (startsType token).Ensures (fun _ => True) fails :=
  scopes_ensures.next fun _ => ensures_pure trivial

theorem startsTypeNameAt_ensures (ahead : Nat) :
    (startsTypeNameAt ahead).Ensures (fun _ => True) fails := by
  refine (peek_ensures ahead).next fun found => ?_
  cases found with
  | none => exact ensures_pure trivial
  | some token => exact scopes_ensures.next fun _ => ensures_pure trivial

theorem mapScopes_ensures (change : Scopes → Scopes) :
    (mapScopes change).Ensures (fun _ => True) fails :=
  ensures_modify fun _ => List.Subset.refl _

theorem setMode_ensures (mode : LexMode) : (setMode mode).Ensures (fun _ => True) fails :=
  ensures_modify fun _ => List.Subset.refl _

theorem advance_ensures : advance.Ensures (fun _ => True) fails := by
  refine ensures_modify fun state => ?_
  split <;> exact List.Subset.refl _

/-- Going back forgets reports, and adds none. -/
theorem restore_ensures (snapshot : Snapshot) : (restore snapshot).Ensures (fun _ => True) fails :=
  ensures_modify fun _ => List.take_subset _ _

theorem snapshot_ensures : snapshot.Ensures (fun _ => True) fails :=
  ensures_get.next fun _ => ensures_pure trivial

theorem report_ensures {error : ParseError} (ordinary : error.IsOrdinary) :
    (report error).Ensures (fun _ => True) fails where
  done run := by
    cases run
    refine ⟨trivial, List.forall_mem_append.mpr ⟨fun _ earlier => .inl earlier, ?_⟩⟩
    exact List.forall_mem_singleton.mpr (.inr ordinary)
  failed run := by cases run

theorem Ensures.inScope (ensures : rule.Ensures holds fails) : (inScope rule).Ensures holds fails :=
  (mapScopes_ensures _).next fun _ => ensures.closing _ fun _ => List.Subset.refl _

theorem Ensures.inMode (ensures : rule.Ensures holds fails) (mode : LexMode) :
    (inMode mode rule).Ensures holds fails :=
  ensures_get.next fun _ => (setMode_ensures mode).next fun _ =>
    ensures.closing _ fun _ => List.Subset.refl _

theorem accept_ensures (kind : TokenKind) : (accept kind).Ensures (fun _ => True) fails := by
  refine current_ensures.next fun found => ?_
  cases found with
  | none => exact ensures_pure trivial
  | some token =>
    dsimp only
    split
    · exact advance_ensures.next fun _ => ensures_pure trivial
    · exact ensures_pure trivial

/-- What fails at the end of the source has the empty span there. -/
theorem failExpecting_yields (expected : Expected) :
    (failExpecting expected : Rule α).Yields holds := by
  refine current_ensures.next fun found => ?_
  cases found with
  | none => exact ensures_get.next fun _ => ensures_fail rfl
  | some token => exact ensures_fail trivial

theorem expect_yields (kind : TokenKind) : (expect kind).Yields fun _ => True := by
  refine (accept_ensures kind).next fun found => ?_
  cases found with
  | none => exact failExpecting_yields _
  | some token => exact ensures_pure trivial

theorem Ensures.unlessAt {rule : Rule (List Child)} {holds : List Child → Prop}
    (ensures : rule.Ensures holds fails) (closer : TokenKind) (nothing : holds []) :
    (unlessAt closer rule).Ensures holds fails := by
  refine (check_ensures closer).next fun stops => ?_
  split
  · exact ensures_pure nothing
  · exact ensures

theorem Yields.nested (yields : rule.Yields holds) : (nested rule).Yields holds := by
  refine ensures_get.next fun state => ?_
  split
  · exact failExpecting_yields _
  · refine (ensures_modify fun state => ?_).next fun _ => yields.closing _ fun state => ?_
    · exact List.Subset.refl state.reports
    · exact List.Subset.refl state.reports

end Rule

end OpenCLTree

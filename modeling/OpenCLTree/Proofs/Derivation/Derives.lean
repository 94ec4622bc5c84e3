import OpenCLTree.Proofs.Derivation.Derivation

namespace OpenCLTree

/-- Whether a rule, wherever it may start, reads what its value stands for, and keeps what every rule
keeps if it fails. -/
def Rule.Derives {α : Type} [HasChildren α] (rule : Rule α) (tokens : List Token) : Prop :=
  ∀ {state : GrammarState}, state.Ready tokens →
    rule.Leads state (fun value after => Derivation tokens state (parts value) after)
      (Onward tokens state)

/-- What the rules that call each other in circles read. -/
structure Grammar.Derives (sub : Grammar) (tokens : List Token) : Prop where
  expression (level : Level) : (sub.expression level).Derives tokens
  castExpression : sub.castExpression.Derives tokens
  unaryExpression : sub.unaryExpression.Derives tokens
  initializer : sub.initializer.Derives tokens
  typeSpecifier : sub.typeSpecifier.Derives tokens
  declarationSpecifiers : sub.declarationSpecifiers.Derives tokens
  declarator (mode : DeclaratorMode) : (sub.declarator mode).Derives tokens
  declarators : sub.ReadsDeclarators
  statement : sub.statement.Derives tokens
  labeled {state : GrammarState} :
    (state.cursor.peek? 0).map (·.kind) = some .identifier →
    (state.cursor.peek? 1).map (·.kind) = some (.punct .colon) →
    sub.statement.Leads state (fun node _ => node.kind = .labeledStatement) fun _ => True

section Steps

open Rule

variable {α β σ : Type} {tokens : List Token} {first state : GrammarState} {front : List Child}
  {done : α → GrammarState → Prop}

/-- One rule after another: what has been read so far goes on with what the next rule reads. -/
theorem Derivation.stepAt {rule : Rule β} {next : β → Rule α} {read : β → List Child}
    (sofar : Derivation tokens first front state)
    (leads : rule.Leads state (fun value after => Derivation tokens state (read value) after)
      (Onward tokens state))
    (goesOn : ∀ value after, Derivation tokens state (read value) after →
      Derivation tokens first (front ++ read value) after →
      (next value).Leads after done (Onward tokens first)) :
    (rule >>= next).Leads state done (Onward tokens first) := by
  rw [leads_bind]
  refine leads.mono (fun value after read => goesOn value after read (sofar.join read)) ?_
  exact fun _ keeps => sofar.toOnward.trans keeps

/-- The same after a rule of whose value more is known. -/
theorem Derivation.stepWith {rule : Rule β} {next : β → Rule α} {read : β → List Child}
    {fact : β → GrammarState → Prop} (sofar : Derivation tokens first front state)
    (leads : rule.Leads state (fun value after => fact value after ∧
      Derivation tokens state (read value) after) (Onward tokens state))
    (goesOn : ∀ value after, fact value after → Derivation tokens state (read value) after →
      Derivation tokens first (front ++ read value) after →
      (next value).Leads after done (Onward tokens first)) :
    (rule >>= next).Leads state done (Onward tokens first) := by
  rw [leads_bind]
  refine leads.mono (fun value after known => ?_) fun _ keeps => sofar.toOnward.trans keeps
  exact goesOn value after known.1 known.2 (sofar.join known.2)

theorem Derivation.step [HasChildren β] {rule : Rule β} {next : β → Rule α}
    (sofar : Derivation tokens first front state) (derives : rule.Derives tokens)
    (goesOn : ∀ value after, Derivation tokens state (parts value) after →
      Derivation tokens first (front ++ parts value) after →
      (next value).Leads after done (Onward tokens first)) :
    (rule >>= next).Leads state done (Onward tokens first) :=
  sofar.stepAt (derives sofar.ready) goesOn

theorem Derivation.fails (sofar : Derivation tokens first front state) (expected : Expected) :
    (failExpecting expected : Rule α).Leads state done (Onward tokens first) :=
  leads_failExpecting expected sofar.toOnward

namespace Rule

theorem Derives.withFact [HasChildren α] {rule : Rule α} {holds : α → Prop}
    (derives : rule.Derives tokens) (gives : rule.Gives holds) (ready : state.Ready tokens) :
    rule.Leads state (fun value after => holds value ∧ Derivation tokens state (parts value) after)
      (Onward tokens state) :=
  (derives ready).gives gives

theorem advance_leads {token : Token} (ready : state.Ready tokens)
    (current : state.cursor.peek? 0 = some token) :
    advance.Leads state (fun _ after => Derivation tokens state [token.toChild] after)
      (Onward tokens state) := by
  unfold advance
  rw [leads_modify]
  rw [Cursor.peek?, Word.peek?] at current
  obtain ⟨⟨found, rest⟩, read, rfl⟩ := Option.map_eq_some_iff.mp current
  simp only [Cursor.advance?, read, Option.map_some]
  exact .pass ready (ready.mode ▸ read)

/-- A token that is accepted is of the kind asked for, and the current one. -/
theorem accept_leads {kind : TokenKind} (ready : state.Ready tokens) :
    (accept kind).Leads state
      (fun found after => (∀ token ∈ found, state.cursor.peek? 0 = some token ∧ token.kind = kind) ∧
        Derivation tokens state (parts found) after)
      (Onward tokens state) := by
  unfold accept
  rw [leads_bind, leads_current]
  cases current : state.cursor.peek? 0 with
  | none => exact ⟨nofun, .nothing ready⟩
  | some token =>
    dsimp only
    split
    · rename_i same
      refine (Derivation.nothing ready).stepAt (advance_leads ready current) fun _ _ _ sofar => ?_
      exact ⟨fun found here => by cases here; exact ⟨rfl, same⟩, sofar⟩
    · exact ⟨nofun, .nothing ready⟩

theorem accept_derives {kind : TokenKind} : (accept kind).Derives tokens :=
  fun ready => (accept_leads ready).mono (fun _ _ known => known.2) fun _ keeps => keeps

theorem expect_leads {kind : TokenKind} (ready : state.Ready tokens) :
    (expect kind).Leads state
      (fun token after => (state.cursor.peek? 0 = some token ∧ token.kind = kind) ∧
        Derivation tokens state [token.toChild] after)
      (Onward tokens state) := by
  unfold expect
  refine (Derivation.nothing ready).stepWith (accept_leads ready) fun found _ known _ sofar => ?_
  cases found with
  | none => exact sofar.fails _
  | some token => exact ⟨known token rfl, sofar⟩

theorem expect_derives {kind : TokenKind} : (expect kind).Derives tokens :=
  fun ready => (expect_leads ready).mono (fun _ _ known => known.2) fun _ keeps => keeps

theorem nested_leads {rule : Rule α} {read : α → List Child} (fact : α → Prop)
    (ready : state.Ready tokens)
    (leads : rule.Leads state.deepen (fun value after => fact value ∧
      Derivation tokens state.deepen (read value) after) (Onward tokens state.deepen)) :
    (nested rule).Leads state (fun value after => fact value ∧ Derivation tokens state (read value) after)
      (Onward tokens state) := by
  unfold nested
  rw [leads_bind, leads_get]
  split
  · exact leads_failExpecting _ (.refl ready)
  · rw [leads_bind, leads_modify, leads_closing]
    have deeper : Derivation tokens state [] state.deepen := .still ready rfl List.prefix_rfl rfl
    refine leads.mono (fun value after known => ⟨known.1, ?_⟩) fun after keeps => ?_
    · have sofar := deeper.join known.2
      have surface : Derivation tokens after [] after.surface :=
        .still sofar.ready rfl List.prefix_rfl rfl
      change Derivation tokens state (read value) after.surface
      simpa using sofar.join surface
    · exact (deeper.toOnward.trans keeps).still rfl List.prefix_rfl (.refl _)

theorem nested_derives [HasChildren α] {rule : Rule α} (derives : rule.Derives tokens) :
    (nested rule).Derives tokens := by
  intro state ready
  have deeper : state.deepen.Ready tokens := ready.still rfl
  exact (nested_leads (fun _ => True) ready ((derives deeper).mono (fun _ _ read => ⟨trivial, read⟩)
    fun _ keeps => keeps)).mono (fun _ _ known => known.2) fun _ keeps => keeps

theorem unlessAt_derives {closer : TokenKind} {rule : Rule (List Child)}
    (derives : rule.Derives tokens) : (unlessAt closer rule).Derives tokens := by
  intro state ready
  unfold unlessAt
  rw [leads_bind, leads_check]
  split
  · exact .nothing ready
  · exact derives ready

theorem only_derives {place : Node → Child} {rule : Rule Node} (derives : rule.Derives tokens)
    (same : ∀ node, (place node).tagged = node.toChild) : (only place rule).Derives tokens := by
  intro state ready
  refine (Derivation.nothing ready).step derives fun node _ _ sofar => ?_
  simpa [same] using sofar

theorem many_derives [HasChildren α] {step : Rule (Option α)} (derives : step.Derives tokens) :
    (many step).Derives tokens := by
  intro state ready
  unfold many
  refine Leads.loop (fun collected after => Derivation tokens state (parts collected) after) ?_
    (.nothing ready)
  intro collected after sofar
  refine sofar.step derives fun found last _ sofar => ?_
  cases found with
  | none => simpa using sofar
  | some value =>
    rw [parts_some, ← parts_concat] at sofar
    exact sofar

theorem commaSeparated_derives {closer : TokenKind} {item : Rule Node} (derives : item.Derives tokens) :
    (commaSeparated closer item).Derives tokens := by
  intro state ready
  unfold commaSeparated
  refine Leads.loop (fun children after => Derivation tokens state (parts children) after) ?_
    (.nothing ready)
  intro children after sofar
  rw [leads_bind, leads_check]
  split
  · exact sofar
  · refine sofar.step derives fun node _ _ sofar => ?_
    refine sofar.step accept_derives fun found _ _ sofar => ?_
    cases found with
    | none => simpa using sofar
    | some comma => simpa using sofar

end Rule

end Steps

end OpenCLTree

import OpenCLTree.Proofs.Echo.Rule
import OpenCLTree.Proofs.Grammar.Expression

namespace OpenCLTree

open Rule

/-- What `( type )` begins, if a type stands in the parenthesis. -/
def tryCast (sub : Grammar) : Rule (Option Node) := do
  match ← tryParenthesizedType sub with
  | some parts =>
    let node ← afterParenthesizedType sub parts
    pure (some node)
  | none => pure none

namespace Rule

variable {α β : Type} {sub : Grammar} {room : Nat} {state after : GrammarState}

/-- Whether a rule fails in a state. -/
def FailsIn (rule : Rule α) (state : GrammarState) : Prop :=
  ∃ error last, rule state = .failed error last

instance (rule : Rule α) (state : GrammarState) : Decidable (rule.FailsIn state) :=
  match run : rule state with
  | .failed error last => isTrue ⟨error, last, run⟩
  | .done _ _ => isFalse fun ⟨_, _, fails⟩ => nomatch run.symm.trans fails
  | .exhausted => isFalse fun ⟨_, _, fails⟩ => nomatch run.symm.trans fails

/-- A rule that does the same one level deeper does the same. -/
theorem nested_congr {one two : Rule α} (same : one state.deepen = two state.deepen) :
    nested one state = nested two state := by
  change (if nestingLimit ≤ state.nesting then failExpecting .shallowerNesting else _ : Rule α) state =
    (if nestingLimit ≤ state.nesting then failExpecting .shallowerNesting else _ : Rule α) state
  split
  · rfl
  · change closing one _ state.deepen = closing two _ state.deepen
    rw [closing, closing, same]

/-- Where no type stands in the parenthesis, nothing has happened. -/
theorem tryParenthesizedType_of_fails (serves : sub.Serves room) (fits : state.Fits (room + 1))
    (fails : (parenthesizedType sub).FailsIn state) :
    tryParenthesizedType sub state = .done none state := by
  obtain ⟨error, last, run⟩ := fails
  obtain ⟨children, reads⟩ := (parenthesizedType_meets serves fits).of_failed run
  exact tryParenthesizedType_failed run reads.restore

/-- The attempt ends, with a type or without. -/
theorem parenthesizedType_ends (serves : sub.Serves room) (fits : state.Fits (room + 1)) :
    (parenthesizedType sub).FailsIn state ∨
      ∃ parts after, parenthesizedType sub state = .done parts after := by
  rcases (parenthesizedType_meets serves fits).ends with ⟨parts, after, run, _⟩ | ⟨error, last, run, _⟩
  · exact .inr ⟨parts, after, run⟩
  · exact .inl ⟨error, last, run⟩

theorem startsTypeNameAt_done (state : GrammarState) (ahead : Nat) : startsTypeNameAt ahead state =
    .done ((state.cursor.peek? ahead).any state.scopes.startsTypeName) state := by
  have peeked : peek ahead state = .done (state.cursor.peek? ahead) state := rfl
  refine (bind_done peeked).trans ?_
  cases state.cursor.peek? ahead <;> rfl

theorem typeInParens_of_fails (serves : sub.Serves room) (fits : state.Fits (room + 1))
    (fails : (parenthesizedType sub).FailsIn state) : typeInParens sub state = .done none state := by
  refine (bind_done (startsTypeNameAt_done state 1)).trans ?_
  cases (state.cursor.peek? 1).any state.scopes.startsTypeName with
  | false => rfl
  | true => exact tryParenthesizedType_of_fails serves fits fails

theorem leadingType_of_fails (serves : sub.Serves room) (fits : state.Fits (room + 1))
    (fails : (parenthesizedType sub).FailsIn state) : leadingType sub state = .done none state := by
  have opens : check (.punct .leftParen) state =
      .done ((state.cursor.peek? 0).map (·.kind) == some (.punct .leftParen)) state := rfl
  refine (bind_done opens).trans ?_
  cases (state.cursor.peek? 0).map (·.kind) == some (.punct .leftParen) with
  | false => rfl
  | true => exact typeInParens_of_fails serves fits fails

theorem tryCast_of_fails (serves : sub.Serves room) (fits : state.Fits (room + 1))
    (fails : (parenthesizedType sub).FailsIn state) : tryCast sub state = .done none state :=
  bind_done (tryParenthesizedType_of_fails serves fits fails)

/-- A type in the parenthesis is not given up again. -/
theorem tryCast_of_done {parts : ParenthesizedType} {last : GrammarState}
    (run : parenthesizedType sub state = .done parts after) : tryCast sub state ≠ .done none last := by
  have goesOn : tryCast sub state =
      (afterParenthesizedType sub parts >>= fun node => pure (some node)) after :=
    bind_done (tryParenthesizedType_done run)
  intro none
  rw [goesOn] at none
  cases next : afterParenthesizedType sub parts after with
  | done node final => cases (bind_done next).symm.trans none
  | failed error final => cases (bind_failed next).symm.trans none
  | exhausted => cases (bind_exhausted next).symm.trans none

end Rule

/-- What an attempt at `( type )` leaves behind in a state. Either there is a type, or the state is as
it was, and the grammar goes on as if nothing had been tried. -/
structure LeavesNoTrace (sub : Grammar) (state : GrammarState) : Prop where
  ends : (parenthesizedType sub).FailsIn state ∨
    ∃ parts after, parenthesizedType sub state = .done parts after ∧
      tryParenthesizedType sub state = .done (some parts) after
  type : ∀ after, tryParenthesizedType sub state = .done none after → after = state
  cast : ∀ after, tryCast sub state = .done none after → after = state
  castGoesOn : (parenthesizedType sub).FailsIn state.deepen →
    castExpression sub state = nested (unaryExpression sub) state
  sizeofGoesOn : ∀ word after, expect (.keyword .sizeof) state = .done word after →
    (parenthesizedType sub).FailsIn after →
    sizeofExpression sub state = (do
      let value ← nested sub.unaryExpression
      pure (.make .sizeofExpression [word, value.as .value]) : Rule Node) after
  vecStepGoesOn : ∀ word after, expect (.keyword .vecStep) state = .done word after →
    (parenthesizedType sub).FailsIn after →
    vecStepExpression sub state = (do
      let opener ← expect (.punct .leftParen)
      let value ← sub.expression .comma
      let closer ← expect (.punct .rightParen)
      pure (.make .vecStepExpression [word, opener, value.as .value, closer]) : Rule Node) after

namespace Rule

variable {sub : Grammar} {room : Nat} {state : GrammarState}

theorem leavesNoTrace (serves : sub.Serves room) (fits : state.Fits (room + 1)) :
    LeavesNoTrace sub state where
  ends := by
    rcases parenthesizedType_ends serves fits with fails | ⟨parts, after, run⟩
    · exact .inl fails
    · exact .inr ⟨parts, after, run, tryParenthesizedType_done run⟩
  type after tried := by
    rcases parenthesizedType_ends serves fits with fails | ⟨parts, last, run⟩
    · cases (tryParenthesizedType_of_fails serves fits fails).symm.trans tried
      rfl
    · cases (tryParenthesizedType_done run).symm.trans tried
  cast after tried := by
    rcases parenthesizedType_ends serves fits with fails | ⟨parts, last, run⟩
    · cases (tryCast_of_fails serves fits fails).symm.trans tried
      rfl
    · exact absurd tried (tryCast_of_done run)
  castGoesOn fails := by
    have deeper := leadingType_of_fails serves fits.deepen fails
    exact nested_congr (bind_done deeper)
  sizeofGoesOn word after read fails := by
    have fits' := ((expect_builds state _).of_done read).fits fits
    refine (bind_done read).trans ?_
    exact bind_done (leadingType_of_fails serves fits' fails)
  vecStepGoesOn word after read fails := by
    have fits' := ((expect_builds state _).of_done read).fits fits
    refine (bind_done read).trans ?_
    exact bind_done (typeInParens_of_fails serves fits' fails)

end Rule

/-- A cast expression is what can be read with a cast, or else a unary expression. -/
theorem castExpression_eq (sub : Grammar) : castExpression sub = nested (do
    let opens ← check (.punct .leftParen)
    let named ← startsTypeNameAt 1
    match ← (if opens && named then tryCast sub else pure none) with
    | some node => pure node
    | none => unaryExpression sub) := by
  refine congrArg nested (funext fun state => ?_)
  have asked : check (.punct .leftParen) state =
      .done ((state.cursor.peek? 0).map (·.kind) == some (.punct .leftParen)) state := rfl
  rw [leadingType, bind_assoc, bind_done asked, bind_done asked, bind_done (startsTypeNameAt_done state 1)]
  cases (state.cursor.peek? 0).map (·.kind) == some (.punct .leftParen) with
  | false => rfl
  | true =>
    rw [if_pos rfl, typeInParens, bind_assoc, bind_done (startsTypeNameAt_done state 1), Bool.true_and]
    cases (state.cursor.peek? 1).any state.scopes.startsTypeName with
    | false => rfl
    | true =>
      rw [if_pos rfl, if_pos rfl, tryCast, bind_assoc]
      refine congrFun (congrArg _ (funext fun parts? => ?_)) state
      cases parts? with
      | none => rfl
      | some parts =>
        rw [bind_assoc]
        exact (bind_pure (afterParenthesizedType sub parts)).symm

end OpenCLTree

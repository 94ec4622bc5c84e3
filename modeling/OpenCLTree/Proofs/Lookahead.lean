import OpenCLTree.Proofs.BufferCoherence
import OpenCLTree.Proofs.Grammar.Attempts
import OpenCLTree.Proofs.Grammar.Reachable
import OpenCLTree.Proofs.Lexical.Relexing
import OpenCLTree.Proofs.Lexical.Spaced

/-!
Whether a parenthesis opens a type is tried out. An attempt that finds no type leaves the grammar in
the state in which it began, and the token buffer with nothing but more lexical errors found, which
the source has anyway.
-/

namespace OpenCLTree

variable {text : List Char}

namespace BufferStep

/-- Whether steps pass no token before they have looked at it; `looked` tells whether that has been
done with the token at which they begin. -/
def careful (looked : Bool) : List BufferStep → Bool
  | [] => true
  | .peek _ :: steps => careful true steps
  | .advance :: steps => looked && careful false steps
  | .rewind _ :: steps => careful false steps
  | _ :: steps => careful looked steps

/-- How many checkpoints there are after one, where there are `newer` of them before the steps. There is
no answer if the steps go back behind that one. -/
def checkpointsAfter? (newer : Nat) : List BufferStep → Option Nat
  | [] => some newer
  | .checkpoint :: steps => checkpointsAfter? (newer + 1) steps
  | .rewind count :: steps => if count ≤ newer then checkpointsAfter? (newer - count) steps else none
  | _ :: steps => checkpointsAfter? newer steps

end BufferStep

namespace TokenBuffer

variable {buffer : TokenBuffer} {token? : Option Token}

/-- Whether the current token of a buffer has been read, or found missing. -/
structure Shows (buffer : TokenBuffer) (token? : Option Token) : Prop where
  here : (buffer.tokens[buffer.position]?).map (·.token) = token?
  enough : buffer.exhausted = true ∨ buffer.position < buffer.tokens.length

theorem Shows.advance? (shows : buffer.Shows token?) (within : buffer.position ≤ buffer.tokens.length) :
    ∃ passed, buffer.advance? = some (token?, passed) := by
  obtain ⟨passed, advanced, _⟩ := advance?_of_enough shows.enough within
  exact ⟨passed, shows.here ▸ advanced⟩

end TokenBuffer

namespace BufferSession

/-- The tokens that a step shows, and the session after it. -/
def answer? (session : BufferSession) : BufferStep → Option (List Token × BufferSession)
  | .peek ahead =>
    (session.buffer.peek? ahead).map fun (token?, buffer) => (token?.toList, { session with buffer })
  | .advance =>
    session.buffer.advance?.map fun (token?, buffer) => (token?.toList, { session with buffer })
  | .takenSince start => (session.buffer.takenSince? start).map fun tokens => (tokens, session)
  | step => (session.step? step).map fun after => ([], after)

/-- The tokens that each of some steps shows. -/
def answers? (session : BufferSession) : List BufferStep → Option (List (List Token))
  | [] => some []
  | step :: steps => do
    let (tokens, after) ← session.answer? step
    return tokens :: (← after.answers? steps)

theorem map_answer? (session : BufferSession) (step : BufferStep) :
    (session.answer? step).map (·.2) = session.step? step := by
  cases step <;> simp [answer?, step?, Option.map_map, Function.comp_def]

variable {session one two : BufferSession} {passage : Passage} {looked : Bool}

/-- Whether two sessions are in the same place, and at the same token if they have looked at it. -/
structure Alike (text : List Char) (one two : BufferSession) (passage : Passage) (looked : Bool) :
    Prop where
  first : one.Follows text passage
  second : two.Follows text passage
  shows : looked = true → ∃ token?, one.buffer.Shows token? ∧ two.buffer.Shows token?

namespace Follows

theorem takenSince? (follows : session.Follows text passage) (start : Nat) :
    session.buffer.takenSince? start = some (passage.passed.drop (min start passage.passed.length)) := by
  rw [TokenBuffer.takenSince?, if_pos follows.coherent.sound.position, List.map_drop, follows.passed,
    follows.position_eq]

/-- What a peek shows is told by the passage alone. -/
theorem peek? (follows : session.Follows text passage) (ahead : Nat) :
    ∃ tokens buffer, Lexer.tokensFrom? text passage.mode passage.place = some tokens ∧
      session.buffer.peek? ahead = some (tokens[ahead]?, buffer) ∧
      ({ session with buffer } : BufferSession).Follows text passage ∧ buffer.Shows tokens[0]? := by
  obtain ⟨tokens, buffer, read, peeked, keeps, shows, enough⟩ := follows.coherent.peek? ahead
  rw [follows.mode, follows.place_eq] at read
  refine ⟨tokens, buffer, read, peeked, follows.withBuffer keeps, ?_, ?_⟩
  · exact (shows 0 (Nat.zero_le _)).symm
  · exact enough.imp_right fun enough => by omega

theorem shows_advance {token? : Option Token} (follows : session.Follows text passage)
    (shows : session.buffer.Shows token?) :
    ∃ after, session.answer? .advance = some (token?.toList, after) ∧
      after.Follows text { passage with passed := passage.passed ++ token?.toList } := by
  obtain ⟨passed, advanced⟩ := shows.advance? follows.coherent.sound.position
  obtain ⟨after, stepped, follows'⟩ := follows.advance
  have current : session.current? = token? := by
    rw [current?, advanced]
    rfl
  have answer : session.answer? .advance = some (token?.toList, { session with buffer := passed }) := by
    rw [answer?, advanced]
    rfl
  rw [← map_answer?, answer] at stepped
  cases stepped
  rw [current] at follows'
  exact ⟨_, answer, follows'⟩

end Follows

namespace Alike

variable {steps : List BufferStep}

theorem setMode (alike : Alike text one two passage looked) (mode : LexMode) :
    Alike text { one with buffer := one.buffer.setMode mode }
      { two with buffer := two.buffer.setMode mode } { passage with mode } looked where
  first := by
    obtain ⟨after, stepped, follows⟩ := alike.first.follow? (.setMode mode)
    cases stepped
    exact follows
  second := by
    obtain ⟨after, stepped, follows⟩ := alike.second.follow? (.setMode mode)
    cases stepped
    exact follows
  shows known := by
    obtain ⟨token?, shows, shows'⟩ := alike.shows known
    exact ⟨token?, ⟨shows.here, shows.enough⟩, ⟨shows'.here, shows'.enough⟩⟩

/-- What a step that has been looked at shows is the same in both, and so is what is left. -/
theorem answer? (alike : Alike text one two passage looked) {step : BufferStep}
    (careful : BufferStep.careful looked (step :: steps) = true) :
    ∃ tokens one' two' passage' looked', one.answer? step = some (tokens, one') ∧
      two.answer? step = some (tokens, two') ∧ Alike text one' two' passage' looked' ∧
      BufferStep.careful looked' steps = true := by
  cases step with
  | setMode mode => exact ⟨[], _, _, _, looked, rfl, rfl, alike.setMode mode, careful⟩
  | peek ahead =>
    obtain ⟨tokens, buffer, read, peeked, follows, shows⟩ := alike.first.peek? ahead
    obtain ⟨tokens', buffer', read', peeked', follows', shows'⟩ := alike.second.peek? ahead
    obtain rfl := Option.some.inj (read.symm.trans read')
    refine ⟨tokens[ahead]?.toList, _, _, passage, true, ?_, ?_,
      ⟨follows, follows', fun _ => ⟨tokens[0]?, shows, shows'⟩⟩, careful⟩
    · rw [BufferSession.answer?, peeked]
      rfl
    · rw [BufferSession.answer?, peeked']
      rfl
  | advance =>
    obtain ⟨known, careful'⟩ := Bool.and_eq_true_iff.mp careful
    obtain ⟨token?, shows, shows'⟩ := alike.shows known
    obtain ⟨after, answer, follows⟩ := alike.first.shows_advance shows
    obtain ⟨after', answer', follows'⟩ := alike.second.shows_advance shows'
    exact ⟨_, _, _, _, false, answer, answer', ⟨follows, follows', nofun⟩, careful'⟩
  | takenSince start =>
    refine ⟨passage.passed.drop (min start passage.passed.length), one, two, passage, looked, ?_, ?_,
      alike, careful⟩
    · rw [BufferSession.answer?, alike.first.takenSince? start]
      rfl
    · rw [BufferSession.answer?, alike.second.takenSince? start]
      rfl
  | checkpoint =>
    obtain ⟨after, stepped, follows⟩ := alike.first.follow? .checkpoint
    obtain ⟨after', stepped', follows'⟩ := alike.second.follow? .checkpoint
    cases stepped
    cases stepped'
    exact ⟨[], _, _, _, looked, rfl, rfl, ⟨follows, follows', alike.shows⟩, careful⟩
  | rewind newer =>
    obtain ⟨after, stepped, follows⟩ := alike.first.rewind newer
    obtain ⟨after', stepped', follows'⟩ := alike.second.rewind newer
    refine ⟨[], after, after', _, false, ?_, ?_, ⟨follows, follows', nofun⟩, careful⟩
    · exact congrArg (Option.map fun after => ([], after)) stepped
    · exact congrArg (Option.map fun after => ([], after)) stepped'

/-- Sessions that are alike show the same, whatever is done with them. -/
theorem answers? (alike : Alike text one two passage looked)
    (careful : BufferStep.careful looked steps = true) :
    ∃ answers, one.answers? steps = some answers ∧ two.answers? steps = some answers := by
  induction steps generalizing one two passage looked with
  | nil => exact ⟨[], rfl, rfl⟩
  | cons step steps ih =>
    obtain ⟨tokens, one', two', passage', looked', answer, answer', alike', careful'⟩ :=
      alike.answer? careful
    obtain ⟨answers, same, same'⟩ := ih alike' careful'
    refine ⟨tokens :: answers, ?_, ?_⟩
    · simp only [BufferSession.answers?, answer, same, Option.bind_eq_bind, Option.bind_some]
      rfl
    · simp only [BufferSession.answers?, answer', same', Option.bind_eq_bind, Option.bind_some]
      rfl

end Alike

end BufferSession

namespace Passage

variable {passage : Passage} {step : BufferStep} {steps : List BufferStep} {own : Nat}
  {front kept : List (List Token × LexMode)}

/-- The checkpoints from one on stay as they are as long as nothing goes back behind it. -/
theorem marks_step (marks : passage.marks = front ++ kept) (set : kept ≠ []) (token? : Option Token)
    (ahead : BufferStep.checkpointsAfter? front.length (step :: steps) = some own) :
    ∃ front', (passage.step token? step).marks = front' ++ kept ∧
      BufferStep.checkpointsAfter? front'.length steps = some own := by
  cases step with
  | checkpoint => exact ⟨(passage.passed, passage.mode) :: front, congrArg (_ :: ·) marks, ahead⟩
  | rewind count =>
    rw [BufferStep.checkpointsAfter?] at ahead
    split at ahead
    case isFalse => cases ahead
    case isTrue within =>
      refine ⟨front.drop count, ?_, by rwa [List.length_drop]⟩
      have left : passage.marks.drop count = front.drop count ++ kept := by
        rw [marks, List.drop_append_of_le_length within]
      rw [step, left]
      cases whole : front.drop count ++ kept with
      | nil => exact absurd (List.append_eq_nil_iff.mp whole).2 set
      | cons mark older => rfl
  | _ => exact ⟨front, marks, ahead⟩

end Passage

namespace BufferSession

variable {session : BufferSession} {passage : Passage}

/-- Going back to a checkpoint is possible whatever has been done since, and ends where it was set. -/
theorem Follows.run?_marks {steps : List BufferStep} {own : Nat} {front kept : List (List Token × LexMode)}
    (follows : session.Follows text passage) (marks : passage.marks = front ++ kept) (set : kept ≠ [])
    (ahead : BufferStep.checkpointsAfter? front.length steps = some own) :
    ∃ after passage' front', session.run? steps = some after ∧ after.Follows text passage' ∧
      passage'.marks = front' ++ kept ∧ front'.length = own := by
  induction steps generalizing session passage front with
  | nil => exact ⟨session, passage, front, rfl, follows, marks, Option.some.inj ahead⟩
  | cons step steps ih =>
    obtain ⟨next, stepped, follows'⟩ := follows.follow? step
    obtain ⟨front', marks', ahead'⟩ := Passage.marks_step marks set session.current? ahead
    obtain ⟨after, passage', front'', run, rest⟩ := ih follows' marks' ahead'
    refine ⟨after, passage', front'', ?_, rest⟩
    rw [run?, List.foldlM_cons, stepped]
    exact run

/-- What can be told apart of two sessions: nothing but the errors that they have found, which are the
first of those that the source has. -/
structure SameFuture (source : String) (one two : BufferSession) : Prop where
  position : one.buffer.position = two.buffer.position
  mode : one.buffer.mode = two.buffer.mode
  answers : ∀ steps, BufferStep.careful false steps = true →
    ∃ answers, one.answers? steps = some answers ∧ two.answers? steps = some answers
  errors : one.buffer.lexer.takeErrors.1 <+: (tokenize source).2 ∧
    two.buffer.lexer.takeErrors.1 <+: (tokenize source).2

theorem errors_front {source : String} {steps : List BufferStep}
    (run : (ofText source.toList).run? steps = some session) :
    session.buffer.lexer.takeErrors.1 <+: (tokenize source).2 := by
  have fresh := ofText_sound source.toList
  obtain ⟨_, _, along, _⟩ := (run?_traces fresh (TokenBuffer.ofText_traces _) run).along
  exact (tokenize_errors_of_along along).1

theorem run?_append {after : BufferSession} {steps : List BufferStep}
    (run : session.run? steps = some after) (others : List BufferStep) :
    session.run? (steps ++ others) = after.run? others := by
  rw [run?, List.foldlM_append, ← run?, run]
  rfl

theorem run?_singleton (session : BufferSession) (step : BufferStep) :
    session.run? [step] = session.step? step := by
  rw [run?, List.foldlM_cons]
  cases session.step? step <;> rfl

/-- A session that has gone back to a checkpoint goes on as if it had never left it. -/
theorem rewound (source : String) (steps tried : List BufferStep) {own : Nat}
    (ahead : BufferStep.checkpointsAfter? 0 tried = some own) :
    ∃ before after, (ofText source.toList).run? (steps ++ [.checkpoint]) = some before ∧
      (ofText source.toList).run? (steps ++ [.checkpoint] ++ tried ++ [.rewind own]) = some after ∧
      SameFuture source before after := by
  obtain ⟨session, passage, run, _, follows⟩ := (ofText_follows source.toList).follow?_all steps
  obtain ⟨before, set, marked⟩ := follows.follow? .checkpoint
  obtain ⟨last, passage', front, runTried, follows', marks, length⟩ :=
    marked.run?_marks (List.nil_append _).symm (List.cons_ne_nil _ _) ahead
  obtain ⟨after, back, returned⟩ := follows'.rewind own
  have same : passage'.step last.current? (.rewind own) = passage.step session.current? .checkpoint := by
    unfold Passage.step
    dsimp only
    rw [marks, List.drop_left' length]
    rfl
  rw [same] at returned
  have runBefore := (run?_append run [.checkpoint]).trans ((run?_singleton _ _).trans set)
  have runLast := (run?_append runBefore tried).trans runTried
  have runAfter := (run?_append runLast [.rewind own]).trans ((run?_singleton _ _).trans back)
  -- The two may have buffered other tokens, in other modes, but they follow the same passage.
  have alike : Alike source.toList before after _ false := ⟨marked, returned, nofun⟩
  refine ⟨before, after, runBefore, runAfter, ?_, ?_, fun future careful => alike.answers? careful, ?_⟩
  · rw [marked.position_eq, returned.position_eq]
  · rw [marked.mode, returned.mode]
  · exact ⟨errors_front runBefore, errors_front runAfter⟩

end BufferSession

/-- Where the grammar tries out whether a parenthesis opens a type, and gives up, it leaves no trace: not
in its own state; and not in the token buffer, in which it goes back to a checkpoint. -/
theorem abandoned_attempt_leaves_no_trace (source : String) :
    (∀ state, GrammarState.Reachable (tokenize source).1 state → ∀ room, state.remaining ≤ room →
      LeavesNoTrace (.ofDepth room) state) ∧
    ∀ steps tried own, BufferStep.checkpointsAfter? 0 tried = some own →
      ∃ before after, (BufferSession.ofText source.toList).run? (steps ++ [.checkpoint]) = some before ∧
        (BufferSession.ofText source.toList).run? (steps ++ [.checkpoint] ++ tried ++ [.rewind own]) =
          some after ∧
        BufferSession.SameFuture source before after := by
  refine ⟨fun state reachable room enough => ?_, fun steps tried own ahead => ?_⟩
  · exact Rule.leavesNoTrace (Grammar.ofDepth_serves room) (reachable.fits enough)
  · exact BufferSession.rewound source steps tried ahead

/-- The enumerators of a type that is given up are not declared. -/
theorem abandoned_enumerators_leave_no_trace :
    let leaves := [Punctuator.leftParen.leaf, .leaf (.keyword .enum) "enum", Punctuator.leftBrace.leaf,
      .leaf .identifier "a", Punctuator.rightBrace.leaf, Punctuator.plus.leaf, .leaf .identifier "b",
      Punctuator.rightParen.leaf]
    let tokens := Token.placedFrom 0 leaves
    let tried := [.peek 0, .advance, .checkpoint, .peek 0, .advance, .rewind 0, .setMode .suffix, .peek 2]
    tokenize "( enum \x7b a \x7d + b )" = (tokens, []) ∧
      (parenthesizedType (.ofDepth 8)).FailsIn (GrammarState.ofTokens tokens).deepen ∧
      castExpression (.ofDepth 8) (.ofTokens tokens) =
        Rule.nested (unaryExpression (.ofDepth 8)) (.ofTokens tokens) ∧
      BufferStep.checkpointsAfter? 0 tried = some 1 ∧
      ∃ before after,
        (BufferSession.ofText "( enum \x7b a \x7d + b )".toList).run? [.peek 0, .checkpoint] = some before ∧
        (BufferSession.ofText "( enum \x7b a \x7d + b )".toList).run?
          ([.peek 0, .checkpoint] ++ tried ++ [.rewind 1]) = some after ∧
        BufferSession.SameFuture "( enum \x7b a \x7d + b )" before after := by
  intro leaves tokens tried
  have read : tokenize "( enum \x7b a \x7d + b )" = (tokens, []) := by decide +kernel
  obtain ⟨grammar, buffer⟩ := abandoned_attempt_leaves_no_trace "( enum \x7b a \x7d + b )"
  rw [read] at grammar
  have noTrace := grammar (.ofTokens tokens) .start 8 (by decide +kernel)
  have fails : (parenthesizedType (.ofDepth 8)).FailsIn (GrammarState.ofTokens tokens).deepen := by
    decide +kernel
  exact ⟨read, fails, noTrace.castGoesOn fails, rfl, buffer [.peek 0] tried 1 rfl⟩

end OpenCLTree

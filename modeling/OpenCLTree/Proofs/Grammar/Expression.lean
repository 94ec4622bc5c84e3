import OpenCLTree.Proofs.Grammar.Specifiers

namespace OpenCLTree

namespace Rule

variable {sub : Grammar} {room : Nat} {first state : GrammarState}

theorem parenthesizedExpression_builds (serves : sub.Serves room)
    (fits : state.Fits (room + 1)) : (parenthesizedExpression sub).Builds state := by
  refine (ReadsWith.nothing state).step (expect_builds _ _) fun opener s1 _ sofar => ?_
  have fits1 := sofar.fits_pred fits (by simp)
  refine sofar.step (nested_builds (serves.expression .comma fits1.deepen))
    fun inner _ _ sofar => ?_
  refine sofar.step (expect_builds _ _) fun closer _ _ sofar => ?_
  exact sofar.wrap (by simp) (.plain rfl (by simp))

theorem stringLiteral_builds (fits : state.Fits room) : stringLiteral.Builds state := by
  refine (ReadsWith.nothing state).step (many_builds fits (by simp) fun s1 _ => ?_)
    fun strings s1 readStrings sofar => ?_
  · refine (ReadsWith.nothing s1).step (accept_builds _ _) fun found s2 readString sofar => ?_
    cases found with
    | none => exact sofar
    | some token => exact readString.leaf (.plain rfl (by simp))
  · split
    · exact failExpecting_stops sofar _
    · exact sofar
    · rename_i nonempty _
      exact sofar.wrap (by simp) (.plain rfl (by simpa using nonempty))

theorem primaryExpression_builds (serves : sub.Serves room) (fits : state.Fits (room + 1)) :
    (primaryExpression sub).Builds state := by
  unfold primaryExpression Builds
  rw [meets_bind, meets_current]
  cases current : state.cursor.peek? 0 with
  | none => exact failExpecting_stops (.nothing state) _
  | some token =>
    dsimp only
    split
    · refine (ReadsWith.nothing state).step (advance_meets current) fun _ _ readToken _ => ?_
      exact readToken.leaf (.identifier token)
    · refine (ReadsWith.nothing state).step (advance_meets current) fun _ _ readToken _ => ?_
      exact readToken.leaf (.plain rfl (by simp))
    · refine (ReadsWith.nothing state).step (advance_meets current) fun _ _ readToken _ => ?_
      exact readToken.leaf (.plain rfl (by simp))
    · exact stringLiteral_builds fits
    · exact parenthesizedExpression_builds serves fits
    · exact failExpecting_stops (.nothing state) _

theorem stringLiteral_takesSuffix : stringLiteral.Gives Node.TakesSuffix := by
  refine Gives.bind (?strings : Gives _ fun nodes => ∀ node ∈ nodes, node.TakesSuffix)
    fun nodes takes => ?_
  case strings =>
    refine gives_many (gives_bind fun found => ?_)
    cases found with
    | none => exact gives_pure (by simp)
    | some token =>
      refine gives_pure fun node here => ?_
      cases here
      exact ⟨Level.le_refl _, rfl⟩
  split
  · exact gives_failExpecting _
  · exact gives_pure (takes _ (List.mem_singleton_self _))
  · exact gives_pure ⟨Level.le_refl _, rfl⟩

/-- A suffix may follow what is no operation. -/
theorem primaryExpression_takesSuffix : (primaryExpression sub).Gives Node.TakesSuffix := by
  refine gives_bind fun found => ?_
  split
  · exact gives_failExpecting _
  · split
    case h_4 => exact stringLiteral_takesSuffix
    case h_5 =>
      exact gives_bind fun _ => gives_bind fun _ => gives_bind fun _ => gives_pure ⟨Level.le_refl _, rfl⟩
    case h_6 => exact gives_failExpecting _
    all_goals exact gives_bind fun _ => gives_pure ⟨Level.le_refl _, rfl⟩

theorem argumentList_builds (serves : sub.Serves room) (fits : state.Fits (room + 1)) :
    (argumentList sub).Builds state := by
  refine (ReadsWith.nothing state).step (expect_builds _ _) fun opener s1 _ sofar => ?_
  refine sofar.stepWith (commaSeparated_buildsWith (sofar.fits_pred fits (by simp))
    fun _ fits => serves.expressionLevel _ fits) fun arguments _ tight _ sofar => ?_
  refine sofar.step (expect_builds _ _) fun closer _ _ sofar => ?_
  exact sofar.wrap (by simp) (.binding rfl rfl (by simp) (.list (.inl rfl) tight))

/-- What the suffix of an expression promises: the whole stands for the expression and the
tokens of the suffix, and another suffix may follow. -/
abbrev Extends (rule : Rule Node) (first state : GrammarState) : Prop :=
  rule.Meets state
    (fun outer after => outer.TakesSuffix ∧ Reads first [outer.toChild] after ∧
      after.remaining < state.remaining)
    (Stops False first)

theorem callSuffix_extends {callee : Node} (serves : sub.Serves room)
    (fits : state.Fits (room + 1)) (takes : callee.TakesSuffix)
    (sofar : Reads first [callee.toChild] state) :
    (callSuffix sub callee).Extends first state := by
  refine sofar.step (argumentList_builds serves fits) fun arguments s1 readArguments whole => ?_
  have fewer := readArguments.remaining_lt (by simp)
  rw [meets_bind, meets_scopes]
  split
  · rename_i name found
    unfold builtinCallee? at found
    split at found
    · rename_i isName
      obtain ⟨token, rfl, readName⟩ := sofar.unwrap rfl isName
      obtain rfl : token = name := (Option.filter_eq_some_iff.mp found).1 |> Option.some.inj
      have builtin : Reads first [(Node.ofToken .builtinFunction token).toChild] state :=
        readName.leaf (.plain rfl (by simp))
      refine ⟨⟨Level.le_refl _, rfl⟩, (builtin.join readArguments).wrap (by simp) ?_, fewer⟩
      exact .binding rfl rfl (by simp) (.builtinCall rfl)
    · cases found
  · refine ⟨⟨Level.le_refl _, rfl⟩, whole.wrap (by simp) (.binding rfl rfl (by simp) ?_), fewer⟩
    exact .suffix rfl takes (by simp [NodeKind.partLevel]) (by simp [Node.as, Child.field?])

theorem subscriptSuffix_extends {array : Node} (serves : sub.Serves room)
    (fits : state.Fits (room + 1)) (takes : array.TakesSuffix)
    (sofar : Reads first [array.toChild] state) :
    (subscriptSuffix sub array).Extends first state := by
  refine sofar.step (expect_builds _ _) fun opener s1 readOpener sofar => ?_
  refine sofar.step (serves.expression _ (readOpener.fits_pred fits (by simp)))
    fun index s2 readIndex sofar => ?_
  refine sofar.step (expect_builds _ _) fun closer s3 readCloser sofar => ?_
  refine ⟨⟨Level.le_refl _, rfl⟩, sofar.wrap (by simp) (.binding rfl rfl (by simp) ?_), ?_⟩
  · exact .suffix rfl takes (by simp [NodeKind.partLevel])
      (by simp [Node.as, Token.toChild, Child.field?])
  · exact ((readOpener.join readIndex).join readCloser).remaining_lt (by simp)

theorem memberSuffix_extends {record : Node} (takes : record.TakesSuffix)
    (sofar : Reads first [record.toChild] state) :
    (memberSuffix record).Extends first state := by
  unfold memberSuffix Extends
  rw [meets_bind, meets_current]
  cases current : state.cursor.peek? 0 with
  | none => exact failExpecting_stops sofar _
  | some token =>
    dsimp only
    split
    · refine sofar.step (advance_meets current) fun _ s1 readOperator sofar => ?_
      refine sofar.step (expect_builds _ _) fun name s2 readName _ => ?_
      have member : Reads s1 [(Node.ofToken .fieldIdentifier name).toChild] s2 :=
        readName.leaf (.plain rfl (by simp))
      refine ⟨⟨Level.le_refl _, rfl⟩, (sofar.join member).wrap (by simp)
        (.binding rfl rfl (by simp) ?_), (readOperator.join readName).remaining_lt (by simp)⟩
      exact .suffix rfl takes (by simp [NodeKind.partLevel])
        (by simp [Node.as, Token.as, Child.field?])
    · exact failExpecting_stops sofar _

theorem meets_inMode_current {α : Type} {mode : LexMode} {next : Option Token → Rule α}
    {done : α → GrammarState → Prop} {failed : ParseError → GrammarState → Prop} :
    (inMode mode current >>= next).Meets state done failed ↔
      (next ((state.cursor.setMode mode).peek? 0)).Meets state done failed := by
  rw [meets_bind]
  rfl

/-- What is no accessor is the same token in every mode. -/
theorem peek?_of_suffix {token : Token} (lawful : state.cursor.Lawful)
    (found : (state.cursor.setMode .suffix).peek? 0 = some token) (plain : token.kind ≠ .swizzle) :
    state.cursor.peek? 0 = some token := by
  unfold Cursor.peek? Cursor.setMode Word.peek? at found
  unfold Cursor.peek? Word.peek?
  rw [lawful.mode]
  cases words : state.cursor.rest with
  | nil => simp [words, Word.read?] at found
  | cons word rest =>
    cases accessor : word.accessor with
    | none => simpa [words, Word.read?, accessor] using found
    | some reading =>
      simp only [words, Word.read?, accessor, Option.map_some, Option.some.injEq] at found
      subst found
      exact absurd (lawful.accessor word (by simp [words]) reading accessor) plain

theorem inMode_advance_meets {token : Token}
    (found : (state.cursor.setMode .suffix).peek? 0 = some token) :
    (inMode .suffix advance).Meets state (fun _ after => Reads state [token.toChild] after)
      (Stops False state) := by
  unfold Cursor.peek? Word.peek? at found
  obtain ⟨⟨accessor, rest⟩, read, rfl⟩ := Option.map_eq_some_iff.mp found
  have passes : (inMode .suffix advance).Meets state
      (fun _ after => after = state.pass accessor rest) (Stops False state) := by
    unfold inMode
    rw [meets_bind, meets_get]
    dsimp only
    rw [meets_bind, setMode, meets_modify, meets_closing, advance, meets_modify]
    simp only [Cursor.advance?, read, Option.map_some]
    rfl
  exact passes.mono (fun _ after same => same ▸ .token read) fun _ _ stops => stops

theorem suffixOperator?_eq_some {kind found : TokenKind} (looked : suffixOperator? kind = some found) :
    kind = found := by
  obtain ⟨operator, atOperator, rfl⟩ := Option.map_eq_some_iff.mp looked
  have same := List.find?_some atOperator
  simp only [Bool.and_eq_true, beq_iff_eq] at same
  exact same.1.symm

theorem suffix?_reads {inner : Node} (serves : sub.Serves room) (fits : state.Fits (room + 1))
    (takes : inner.TakesSuffix) (sofar : Reads first [inner.toChild] state) :
    (suffix? sub inner).Meets state
      (fun found after =>
        match found with
        | some outer => outer.TakesSuffix ∧ Reads first [outer.toChild] after ∧
          after.remaining < state.remaining
        | none => Reads first [inner.toChild] after)
      (Stops False first) := by
  unfold suffix?
  rw [meets_inMode_current]
  cases found : (state.cursor.setMode .suffix).peek? 0 with
  | none => exact sofar
  | some token =>
    dsimp only
    split
    · rw [meets_bind]
      exact callSuffix_extends serves fits takes sofar
    · rw [meets_bind]
      exact subscriptSuffix_extends serves fits takes sofar
    · split
      · refine sofar.step (inMode_advance_meets found) fun _ s1 readAccessor sofar => ?_
        refine ⟨⟨Level.le_refl _, rfl⟩, sofar.wrap (by simp) (.binding rfl rfl (by simp) ?_),
          readAccessor.remaining_lt (by simp)⟩
        exact .suffix rfl takes (by simp) (by simp [Token.as, Child.field?])
      · rw [meets_bind]
        exact memberSuffix_extends takes sofar
    · rw [meets_bind]
      exact memberSuffix_extends takes sofar
    · rw [meets_bind]
      exact memberSuffix_extends takes sofar
    · rename_i increment
      exact update token found (by rw [suffixOperator?_eq_some increment]; simp)
    · rename_i decrement
      exact update token found (by rw [suffixOperator?_eq_some decrement]; simp)
    · exact sofar
where
  update (token : Token) (found : (state.cursor.setMode .suffix).peek? 0 = some token)
      (plain : token.kind ≠ .swizzle) :
      (advance >>= fun _ => pure (some (.make .updateExpression
        [inner.as .argument, token.as .operator])) : Rule (Option Node)).Meets state
        (fun found after =>
          match found with
          | some outer => outer.TakesSuffix ∧ Reads first [outer.toChild] after ∧
            after.remaining < state.remaining
          | none => Reads first [inner.toChild] after)
        (Stops False first) := by
    have current := peek?_of_suffix fits.lawful found plain
    refine sofar.step (advance_meets current) fun _ s1 readOperator sofar => ?_
    refine ⟨⟨Level.le_refl _, rfl⟩, sofar.wrap (by simp) (.binding rfl rfl (by simp) ?_),
      readOperator.remaining_lt (by simp)⟩
    exact .suffix rfl takes (by simp) (by simp [Token.as, Child.field?])

theorem suffixes_reads {inner : Node} (serves : sub.Serves room) (fits : first.Fits (room + 1))
    (takes : inner.TakesSuffix) (sofar : Reads first [inner.toChild] state) :
    (suffixes sub inner).Meets state
      (fun outer after => .suffix ≤ outer.level ∧ Reads first [outer.toChild] after)
      (Stops False first) := by
  refine Meets.loop (fun inner after => inner.TakesSuffix ∧ Reads first [inner.toChild] after) ?_
    ⟨takes, sofar⟩
  rintro inner s1 ⟨takes, sofar⟩
  rw [meets_bind]
  refine (suffix?_reads serves (sofar.fits fits) takes sofar).mono ?_ fun _ _ stops => stops
  intro found after outcome
  cases found with
  | none => exact ⟨takes.1, outcome⟩
  | some outer => exact ⟨⟨outcome.1, outcome.2.1⟩, outcome.2.2⟩

theorem postfixExpression_builds (serves : sub.Serves room) (fits : state.Fits (room + 1)) :
    (postfixExpression sub).BuildsWith (fun node _ => .suffix ≤ node.level) state := by
  refine (ReadsWith.nothing state).stepWith (Meets.gives (primaryExpression_builds serves fits)
    primaryExpression_takesSuffix) fun primary _ takes _ sofar => ?_
  exact suffixes_reads serves fits takes sofar

theorem parenthesizedType_meets (serves : sub.Serves room) (fits : state.Fits (room + 1)) :
    (parenthesizedType sub).Meets state (fun parts after => Reads state (pieces parts) after)
      (Halts False state) := by
  unfold parenthesizedType
  rw [meets_bind]
  refine (expect_builds state _).mono ?_ fun _ _ stops => stops.2
  intro opener s1 readOpener
  rw [meets_bind]
  refine (typeDescriptor_builds serves (readOpener.fits_pred fits (by simp))).mono ?_
    fun _ _ stops => readOpener.halts stops.2
  intro type s2 readType
  have sofar := readOpener.join readType
  rw [meets_bind]
  refine (accept_builds s2 _).mono ?_ fun _ _ stops => sofar.halts stops.2
  intro found s3 readCloser
  cases found with
  | none => exact ⟨_, sofar.join readCloser⟩
  | some closer => exact sofar.join readCloser

section Trying

variable {parts : ParenthesizedType} {error : ParseError} {after : GrammarState}

theorem tryParenthesizedType_done (run : parenthesizedType sub state = .done parts after) :
    tryParenthesizedType sub state = .done (some parts) after :=
  (bind_done (snapshot_done state)).trans (bind_done (attempt_done run))

theorem tryParenthesizedType_failed (run : parenthesizedType sub state = .failed error after)
    (restored : { after with
      cursor := state.cursor
      reports := after.reports.take state.reports.length
      scopes := after.scopes.undoTo state.scopes.mark } = state) :
    tryParenthesizedType sub state = .done none state := by
  have back : restore ⟨state.cursor, state.reports.length, state.scopes.mark⟩ after = .done () state :=
    congrArg (Outcome.done ()) restored
  refine (bind_done (snapshot_done state)).trans ?_
  exact (bind_done (attempt_failed run)).trans (bind_done back)

theorem tryParenthesizedType_exhausted (run : parenthesizedType sub state = .exhausted) :
    tryParenthesizedType sub state = .exhausted :=
  (bind_done (snapshot_done state)).trans (bind_exhausted (attempt_exhausted run))

end Trying

/-- An attempt that fails leaves no trace. -/
theorem tryParenthesizedType_meets (serves : sub.Serves room) (fits : state.Fits (room + 1)) :
    (tryParenthesizedType sub).Meets state
      (fun found after =>
        match found with
        | some parts => Reads state (pieces parts) after
        | none => after = state)
      (Stops False state) := by
  unfold tryParenthesizedType snapshot
  rw [meets_bind, meets_bind, meets_get, meets_pure, meets_bind, meets_attempt]
  refine (parenthesizedType_meets serves fits).mono (fun _ _ reads => reads) ?_
  rintro error after ⟨children, reads⟩
  exact reads.restore

theorem typeInParens_builds (serves : sub.Serves room) (fits : state.Fits (room + 1)) :
    (typeInParens sub).Builds state := by
  unfold typeInParens Builds
  rw [meets_bind, meets_startsTypeNameAt]
  split
  · refine (tryParenthesizedType_meets serves fits).mono ?_ fun _ _ stops => stops
    intro found after outcome
    cases found with
    | some parts => exact outcome
    | none => rw [outcome]; exact .nothing state
  · exact .nothing state

theorem leadingType_builds (serves : sub.Serves room) (fits : state.Fits (room + 1)) :
    (leadingType sub).Builds state := by
  unfold leadingType Builds
  rw [meets_bind, meets_check]
  split
  · exact typeInParens_builds serves fits
  · exact .nothing state

theorem designators_builds (serves : sub.Serves room) (fits : state.Fits room) :
    (designators sub).Builds state := by
  refine many_builds fits (by simp) fun s1 fits => ?_
  unfold Builds
  rw [meets_bind, meets_currentKind]
  split
  · refine (ReadsWith.nothing s1).step (expect_builds _ _) fun dot s2 readDot sofar => ?_
    refine sofar.step (expect_builds _ _) fun name s3 readName _ => ?_
    have member : Reads s2 [(Node.ofToken .fieldIdentifier name).toChild] s3 :=
      readName.leaf (.plain rfl (by simp))
    exact (readDot.join member).wrap (by simp) (.plain rfl (by simp))
  · refine (ReadsWith.nothing s1).step (expect_builds _ _) fun opener s2 readOpener sofar => ?_
    refine sofar.stepWith (serves.expressionLevel _ (readOpener.fits fits))
      fun index s3 tight _ sofar => ?_
    refine sofar.step (expect_builds _ _) fun closer s4 _ sofar => ?_
    exact sofar.wrap (by simp) (.binding rfl rfl (by simp)
      (.ofParts rfl rfl (by simp [NodeKind.partLevel, tight])))
  · exact .nothing s1

theorem initializerPair_builds (serves : sub.Serves room) (fits : state.Fits room) :
    (initializerPair sub).Builds state := by
  refine (ReadsWith.nothing state).stepWith (Meets.gives (designators_builds serves fits)
    designators_gives) fun designators s1 fields _ sofar => ?_
  refine sofar.step (expect_builds _ _) fun assign s2 _ sofar => ?_
  refine sofar.stepWith (serves.initializerBinds (sofar.fits fits)) fun value s3 tight _ sofar => ?_
  have front : ∀ child ∈ designators, child.Binds .initializerPair :=
    Child.binds_of_fields fun child member => by rw [fields child member]; rfl
  refine sofar.wrap (by simp) (.binding rfl rfl (by simp) (.ofParts rfl rfl ?_))
  exact List.forall_mem_append.mpr ⟨front, by simp [NodeKind.partLevel, tight]⟩

theorem initializerEntries_builds (serves : sub.Serves room) (fits : state.Fits room) :
    (commaSeparated (.punct .rightBrace) do
      match ← currentKind with
      | some (.punct .dot) | some (.punct .leftBracket) => initializerPair sub
      | _ => sub.initializer).BuildsWith
      (fun children _ => ∀ node ∈ Child.nodes children, .assignment ≤ node.level) state := by
  refine commaSeparated_buildsWith fits fun s1 fits => ?_
  have pair : (initializerPair sub).BuildsWith (fun node _ => .assignment ≤ node.level) s1 :=
    Meets.gives (initializerPair_builds serves fits) <|
      gives_bind fun _ => gives_bind fun _ => gives_bind fun _ => gives_pure (Level.le_suffix _)
  unfold BuildsWith
  rw [meets_bind, meets_currentKind]
  split
  · exact pair
  · exact pair
  · exact serves.initializerBinds fits

theorem initializerList_builds (serves : sub.Serves room) (fits : state.Fits (room + 1)) :
    (initializerList sub).BuildsWith (fun node _ => .assignment ≤ node.level) state := by
  refine (ReadsWith.nothing state).step (expect_builds _ _) fun opener s1 _ sofar => ?_
  refine sofar.stepWith (initializerEntries_builds serves (sofar.fits_pred fits (by simp)))
    fun entries s2 tight _ sofar => ?_
  refine sofar.step (expect_builds _ _) fun closer s3 _ sofar => ?_
  refine ⟨Level.le_suffix _, sofar.wrap (by simp) (.binding rfl rfl (by simp) ?_)⟩
  exact .list (.inr rfl) tight

theorem afterParenthesizedType_reads {parts : ParenthesizedType} (serves : sub.Serves room)
    (fits : first.Fits (room + 1)) (sofar : Reads first (pieces parts) state) :
    (afterParenthesizedType sub parts).Meets state
      (fun node after => .suffix ≤ node.level ∧ Reads first [node.toChild] after)
      (Stops False first) := by
  have fits1 := sofar.fits_pred fits (by simp)
  have cast : (afterParenthesizedType.cast sub parts).Meets state
      (fun node after => .suffix ≤ node.level ∧ Reads first [node.toChild] after)
      (Stops False first) := by
    refine sofar.stepWith (serves.castBinds fits1) fun value s1 tight _ sofar => ?_
    refine ⟨Level.le_refl _, sofar.wrap (by simp [ParenthesizedType.children]) ?_⟩
    exact .binding rfl rfl (by simp) (.cast tight)
  unfold afterParenthesizedType
  rw [meets_bind, meets_currentKind]
  split
  · refine sofar.step (initializerList_builds serves fits1.weaken).builds fun list s1 _ sofar => ?_
    refine suffixes_reads serves fits ⟨Level.le_refl _, rfl⟩ (sofar.wrap ?_ (.plain rfl (by simp)))
    simp [ParenthesizedType.children]
  · split
    · refine sofar.step (argumentList_builds serves fits1.weaken) fun arguments s1 _ sofar => ?_
      refine suffixes_reads serves fits ⟨Level.le_refl _, rfl⟩ (sofar.wrap ?_ (.plain rfl (by simp)))
      simp [ParenthesizedType.children]
    · exact cast
  · exact cast

theorem sizeofExpression_builds (serves : sub.Serves room) (fits : state.Fits (room + 1)) :
    (sizeofExpression sub).BuildsWith (fun node _ => .suffix ≤ node.level) state := by
  refine (ReadsWith.nothing state).step (expect_builds _ _) fun word s1 _ sofar => ?_
  refine sofar.step (leadingType_builds serves (sofar.fits fits)) fun found s2 _ sofar => ?_
  cases found with
  | some parts =>
    refine ⟨Level.le_refl _, sofar.wrap (by simp [ParenthesizedType.children])
      (.binding rfl rfl (by simp) (.ofParts rfl rfl ?_))⟩
    simp [ParenthesizedType.children, NodeKind.partLevel]
  | none =>
    have fits2 := sofar.fits_pred fits (by simp)
    refine sofar.stepWith (nested_buildsWith (serves.unaryBinds fits2.deepen))
      fun value s3 tight _ sofar => ?_
    refine ⟨Level.le_refl _, sofar.wrap (by simp) (.binding rfl rfl (by simp)
      (.ofParts rfl rfl (by simp [NodeKind.partLevel, tight])))⟩

theorem alignofExpression_builds (serves : sub.Serves room) (fits : state.Fits (room + 1)) :
    (alignofExpression sub).BuildsWith (fun node _ => .suffix ≤ node.level) state := by
  refine (ReadsWith.nothing state).step (expect_builds _ _) fun word s1 _ sofar => ?_
  refine sofar.step (expect_builds _ _) fun opener s2 _ sofar => ?_
  refine sofar.step (typeDescriptor_builds serves (sofar.fits_pred fits (by simp)))
    fun type s3 _ sofar => ?_
  refine sofar.step (expect_builds _ _) fun closer s4 _ sofar => ?_
  exact ⟨Level.le_refl _, sofar.wrap (by simp) (.plain rfl (by simp))⟩

theorem vecStepExpression_builds (serves : sub.Serves room) (fits : state.Fits (room + 1)) :
    (vecStepExpression sub).BuildsWith (fun node _ => .suffix ≤ node.level) state := by
  refine (ReadsWith.nothing state).step (expect_builds _ _) fun word s1 _ sofar => ?_
  refine sofar.step (typeInParens_builds serves (sofar.fits fits)) fun found s2 _ sofar => ?_
  cases found with
  | some parts =>
    exact ⟨Level.le_refl _, sofar.wrap (by simp [ParenthesizedType.children]) (.plain rfl (by simp))⟩
  | none =>
    refine sofar.step (expect_builds _ _) fun opener s3 _ sofar => ?_
    refine sofar.step (serves.expression _ (sofar.fits_pred fits (by simp)))
      fun value s4 _ sofar => ?_
    refine sofar.step (expect_builds _ _) fun closer s5 _ sofar => ?_
    exact ⟨Level.le_refl _, sofar.wrap (by simp) (.plain rfl (by simp))⟩

theorem unaryExpression_builds (serves : sub.Serves room) (fits : state.Fits (room + 1)) :
    (unaryExpression sub).BuildsWith (fun node _ => .suffix ≤ node.level) state := by
  unfold unaryExpression BuildsWith
  rw [meets_bind, meets_current]
  cases current : state.cursor.peek? 0 with
  | none => exact failExpecting_stops (.nothing state) _
  | some token =>
    have prefixed_builds (kind : NodeKind) (rule : Rule Node)
        (isPrefix : kind = .unaryExpression ∨ kind = .pointerExpression ∨ kind = .updateExpression)
        (operand : ∀ s1 : GrammarState, s1.Fits room →
          rule.BuildsWith (fun node _ => .suffix ≤ node.level) s1) :
        (advance >>= fun _ => rule >>= fun value => pure (prefixed kind token value)).BuildsWith
          (fun node _ => .suffix ≤ node.level) state := by
      refine (ReadsWith.nothing state).step (advance_meets current) fun _ s1 _ sofar => ?_
      refine sofar.stepWith (operand s1 (sofar.fits_pred fits (by simp)))
        fun value s2 tight _ sofar => ?_
      refine ⟨?_, sofar.wrap (by simp) (.binding ?_ ?_ (by simp) (.prefixed isPrefix tight))⟩
      all_goals rcases isPrefix with rfl | rfl | rfl <;> first | rfl | exact Level.le_refl _
    dsimp only
    split
    · exact postfixExpression_builds serves fits
    · exact sizeofExpression_builds serves fits
    · exact alignofExpression_builds serves fits
    · exact vecStepExpression_builds serves fits
    · exact prefixed_builds .updateExpression _ (.inr (.inr rfl)) fun s1 fits =>
        nested_buildsWith (serves.unaryBinds fits.deepen)
    · exact prefixed_builds .updateExpression _ (.inr (.inr rfl)) fun s1 fits =>
        nested_buildsWith (serves.unaryBinds fits.deepen)
    · exact prefixed_builds .pointerExpression _ (.inr (.inl rfl)) fun s1 fits =>
        serves.castBinds fits
    · exact prefixed_builds .pointerExpression _ (.inr (.inl rfl)) fun s1 fits =>
        serves.castBinds fits
    · exact prefixed_builds .unaryExpression _ (.inl rfl) fun s1 fits => serves.castBinds fits

theorem castExpression_builds (serves : sub.Serves room) (fits : state.Fits (room + 1)) :
    (castExpression sub).BuildsWith (fun node _ => .suffix ≤ node.level) state := by
  unfold castExpression
  refine nested_buildsWith ?_
  refine (ReadsWith.nothing state.deepen).step (leadingType_builds serves fits.deepen)
    fun found s1 _ sofar => ?_
  cases found with
  | some parts => exact afterParenthesizedType_reads serves fits.deepen sofar
  | none =>
    refine Meets.mono (unaryExpression_builds serves (sofar.fits fits.deepen)) ?_ fun _ _ stops =>
      sofar.stops stops
    exact fun _ _ outcome => ⟨outcome.1, sofar.join outcome.2⟩

/-- Whether an expression may be the left operand of whatever operator comes next. -/
def Precedes (left : Node) (state : GrammarState) : Prop :=
  ∀ token operator, state.cursor.peek? 0 = some token →
    Operator.find? .infixOp token.kind = some operator → operator.leftLevel ≤ left.level

/-- What an operator with its operands leaves: it may be the left operand of the next operator, which
does not belong to its right operand. -/
theorem precedes_of_past {left : Node} {token : Token} {operator : Operator}
    (found : Operator.find? .infixOp token.kind = some operator)
    (level : left.level = operator.level) (past : state.Past operator.rightLevel) :
    Precedes left state := by
  intro next other current here
  have looser := past next other current here
  obtain ⟨member, isInfix⟩ := Operator.find?_eq_some found
  obtain ⟨memberOther, otherInfix⟩ := Operator.find?_eq_some here
  have direction := (Operator.infix_entries operator member isInfix).2
  have directionOther := (Operator.infix_entries other memberOther otherInfix).2
  rw [level]
  unfold Operator.rightLevel at looser
  unfold Operator.leftLevel
  cases associativity : operator.associativity with
  | right =>
    rw [associativity] at looser
    cases other.associativity with
    | left => exact Nat.le_of_lt looser
    | right => exact Level.next_le looser
  | left =>
    rw [associativity] at looser
    have le := Level.le_of_lt_next looser
    cases otherSide : other.associativity with
    | left => exact le
    | right =>
      -- Operators of one level group alike, so this one is looser.
      refine Level.next_le (Level.lt_of_le_of_ne le fun same => ?_)
      rw [same, ← direction, associativity] at directionOther
      cases directionOther.mp otherSide

theorem conditionalRest_reads {condition : Node} {question : Token} (serves : sub.Serves room)
    (fits : state.Fits room) (before : Level.conditional.next ≤ condition.level)
    (sofar : Reads first [condition.toChild, question.toChild] state) :
    (conditionalRest sub condition question).Meets state
      (fun node after => (node.level = .conditional ∧ after.Past .conditional) ∧
        Reads first [node.toChild] after ∧ after.remaining ≤ state.remaining)
      (Stops False first) := by
  refine sofar.step (serves.expression _ fits) fun consequence s1 readConsequence sofar => ?_
  refine sofar.step (expect_builds _ _) fun colon s2 readColon sofar => ?_
  have fits2 := (readConsequence.join readColon).fits fits
  refine sofar.stepWith (serves.expressionBinds _ fits2)
    fun alternative s3 ⟨tight, past⟩ readAlternative sofar => ?_
  refine ⟨⟨rfl, past⟩, sofar.wrap (by simp) (.binding rfl rfl (by simp) ?_), ?_⟩
  · exact .conditional before tight
  · exact ((readConsequence.join readColon).join readAlternative).remaining_le

theorem infixed_reads {operator : Operator} {left right : Node} {token : Token}
    (found : Operator.find? .infixOp token.kind = some operator)
    (other : operator.level ≠ .conditional) (before : operator.leftLevel ≤ left.level)
    (after : operator.rightLevel ≤ right.level)
    (reads : Reads first [left.toChild, token.toChild, right.toChild] state) :
    Reads first [(infixed operator.level left token right).toChild] state := by
  have leveled := Node.IsLeveled.infixed found other before after
  cases level : operator.level <;> rw [level] at leveled <;> unfold infixed at leveled ⊢ <;>
    exact reads.wrap (by simp) (.binding rfl rfl (by simp) leveled)

/-- A round of the loop of an expression: each operator takes what stands to its left and an operand
that binds tightly enough. -/
theorem extend?_reads {least : Level} {left : Node} (serves : sub.Serves room)
    (fits : state.Fits (room + 1)) (precedes : Precedes left state)
    (sofar : Reads first [left.toChild] state) :
    (extend? sub least left).Meets state
      (fun found after =>
        match found with
        | some larger => (least ≤ larger.level ∧ Precedes larger after) ∧
          Reads first [larger.toChild] after ∧ after.remaining < state.remaining
        | none => after.Past least ∧ Reads first [left.toChild] after)
      (Stops False first) := by
  unfold extend?
  rw [meets_bind, meets_current]
  cases current : state.cursor.peek? 0 with
  | none =>
    refine ⟨fun token operator here => ?_, sofar⟩
    rw [current] at here
    cases here
  | some token =>
    have past (looser : ∀ operator, Operator.find? .infixOp token.kind = some operator →
        operator.level < least) : state.Past least := by
      intro other operator here found
      rw [current] at here
      cases here
      exact looser operator found
    dsimp only
    split
    · rename_i none
      refine ⟨past fun operator found => ?_, sofar⟩
      rw [none] at found
      cases found
    · rename_i operator found
      split
      · rename_i looser
        refine ⟨past fun other here => ?_, sofar⟩
        obtain rfl := Option.some.inj (found.symm.trans here)
        exact looser
      · rename_i enough
        have before := precedes token operator current found
        have least_le : least ≤ operator.level := Nat.le_of_not_lt enough
        refine sofar.step (advance_meets current) fun _ s1 readOperator sofar => ?_
        have fits1 := readOperator.fits_pred fits (by simp)
        have fewer := readOperator.remaining_lt (by simp)
        split
        · rename_i isConditional
          obtain ⟨member, isInfix⟩ := Operator.find?_eq_some found
          have right := (Operator.infix_entries operator member isInfix).2.mpr (.inr isConditional)
          rw [Operator.leftLevel, right, isConditional] at before
          rw [meets_bind]
          refine (conditionalRest_reads serves fits1 before sofar).mono ?_ fun _ _ stops => stops
          rintro larger after ⟨⟨level, past⟩, reads, le⟩
          rw [← isConditional] at level
          have past : after.Past operator.rightLevel := by
            rwa [Operator.rightLevel, right, isConditional]
          exact ⟨⟨level.symm ▸ least_le, precedes_of_past found level past⟩, reads,
            Nat.lt_of_le_of_lt le fewer⟩
        · rename_i other
          refine sofar.stepWith (serves.expressionBinds _ fits1)
            fun right s2 ⟨after, past⟩ readRight sofar => ?_
          have level : (infixed operator.level left token right).level = operator.level :=
            Node.level_infixed found
          exact ⟨⟨level.symm ▸ least_le, precedes_of_past found level past⟩,
            infixed_reads found other before after sofar,
            Nat.lt_of_le_of_lt readRight.remaining_le fewer⟩

theorem expression_builds {least : Level} (serves : sub.Serves room)
    (fits : state.Fits (room + 1)) :
    (expression sub least).BuildsWith
      (fun node after => least ≤ node.level ∧ after.Past least) state := by
  refine (ReadsWith.nothing state).stepWith (castExpression_builds serves fits)
    fun left s1 tight readFirst _ => ?_
  have any (level : Level) : level ≤ left.level := Level.le_trans (Level.le_suffix _) tight
  refine Meets.loop (fun left after => (least ≤ left.level ∧ Precedes left after) ∧
    Reads state [left.toChild] after) ?_ ⟨⟨any _, fun _ _ _ _ => any _⟩, readFirst⟩
  rintro left s2 ⟨⟨tight, precedes⟩, sofar⟩
  rw [meets_bind]
  refine (extend?_reads serves (sofar.fits fits) precedes sofar).mono ?_ fun _ _ stops => stops
  intro found after outcome
  cases found with
  | none => exact ⟨⟨tight, outcome.1⟩, outcome.2⟩
  | some larger => exact ⟨⟨outcome.1, outcome.2.1⟩, outcome.2.2⟩

theorem initializer_builds (serves : sub.Serves room) (fits : state.Fits (room + 1)) :
    (initializer sub).BuildsWith (fun node _ => .assignment ≤ node.level) state := by
  unfold initializer BuildsWith
  rw [meets_bind, meets_check]
  split
  · exact nested_buildsWith (initializerList_builds serves fits.deepen)
  · exact Meets.mono (expression_builds serves fits)
      (fun _ _ outcome => ⟨outcome.1.1, outcome.2⟩) fun _ _ stops => stops

end Rule

end OpenCLTree

import OpenCLTree.Proofs.Grammar.Balance

/-!
Rules that go on with what has been read. They keep the bookkeeping balanced whatever that is.
-/

namespace OpenCLTree

namespace Rule

variable {sub : Grammar} {room : Nat} {state : GrammarState}

theorem typeToken_balances (poised : state.Poised room) (kind : NodeKind) (token : Token) :
    (typeToken kind token).Balances state :=
  (advance_balances poised).made

theorem sizedTypeSpecifier_balances (poised : state.Poised room) : sizedTypeSpecifier.Balances state := by
  refine step poised (many_balances poised fun middle poised => ?_) fun modifiers middle poised => ?_
  · unfold Takes
    rw [meets_bind, meets_current]
    cases current : middle.cursor.peek? 0 with
    | none => exact pure_takes (by nofun) middle
    | some token =>
      dsimp only
      split
      · exact Takes.made (advance_takes poised current)
      · exact pure_takes (by nofun) middle
  · unfold Balances
    rw [meets_bind, meets_current]
    split
    · split
      case h_5 => exact pure_balances _ middle
      all_goals exact (advance_balances poised).made
    · exact pure_balances _ middle

theorem recordSpecifier_balances (serves : sub.Serves room) (poised : state.Poised (room + 1))
    (keyword : Keyword) (kind : NodeKind) : (recordSpecifier sub keyword kind).Balances state := by
  refine expect_bind poised fun word s1 poised => ?_
  refine step poised ((attributes_builds serves poised.fits.weaken).balances poised)
    fun before s2 poised => ?_
  refine step poised ((typeTag_builds s2).balances poised) fun tag s3 poised => ?_
  unfold Balances
  dsimp only
  rw [meets_bind, meets_check]
  split
  · have body := (fieldDeclarationList_builds serves poised.weaken.deepen.fits).balances poised.deepen
    refine step poised (nested_balances body) fun body s4 poised => ?_
    exact Balances.made ((attributes_builds serves poised.fits.weaken).balances poised)
  · split
    · exact failExpecting_balances _ s3
    · exact pure_balances _ s3

theorem qualifierNode_balances (qualifier : Qualifier) (token : Token) (set : QualifierSet)
    (state : GrammarState) : (qualifierNode qualifier token set).Balances state := by
  unfold qualifierNode Balances
  split
  · exact pure_balances _ state
  · exact (report_balances _ state).made

theorem qualifiers_balances (serves : sub.Serves room) (poised : state.Poised (room + 1))
    (specifiers : Specifiers) : (qualifiers sub specifiers).Balances state := by
  refine loop_balances poised specifiers fun soFar middle poised => ?_
  unfold Takes
  rw [meets_bind, meets_current]
  cases current : middle.cursor.peek? 0 with
  | none => exact pure_takes nofun middle
  | some token =>
    dsimp only
    split
    · refine Takes.bind (advance_takes poised current) fun _ s1 _ _ => ?_
      exact (qualifierNode_balances _ token soFar.qualifiers s1).made
    · have takes := (attributeSpecifier_builds serves poised.fits).takes poised fun _ => List.cons_ne_nil _ _
      exact takes.made
    · exact pure_takes nofun middle

theorem declareName_balances (declarator : Node) (sort : NameSort) (state : GrammarState) :
    (declareName declarator sort).Balances state := by
  unfold declareName
  split
  · exact .declare state _ sort
  · exact pure_balances _ state

theorem initDeclarator_balances (serves : sub.Serves room) (poised : state.Poised (room + 1))
    (sort : NameSort) (declared : Declared) : (initDeclarator sub sort declared).Balances state := by
  refine step poised (declareName_balances declared.declarator sort state) fun _ s1 poised => ?_
  refine accept_bind poised (fun assign s2 poised => ?_) (pure_balances _ s1)
  exact Balances.made ((serves.initializerBinds poised.fits).builds.balances poised)

theorem declared_balances (serves : sub.Serves room) (poised : state.Poised room) :
    (declared sub).Balances state :=
  (declared_builds serves poised.fits).balances poised

theorem declarationRest_balances (serves : sub.Serves room) (poised : state.Poised (room + 1))
    (sort : NameSort) (first : Declared) : (declarationRest sub sort first).Balances state := by
  refine step poised (loop_balances poised _ fun current middle poised => ?_) fun children s1 poised => ?_
  · refine (initDeclarator_balances serves poised sort current.2).bindTakes fun declarator s1 balanced => ?_
    refine accept_bind_takes (poised.behind balanced) (fun comma s2 poised => ?_) (pure_takes nofun s1)
    exact (declared_balances serves poised).made
  · exact expect_bind poised fun semicolon s2 _ => pure_balances _ s2

theorem declareAll_balances (names : List String) (state : GrammarState) :
    state.Balanced (state.mapScopes fun scopes => names.foldl (·.declare · .ordinary) scopes) := by
  induction names generalizing state with
  | nil => exact .refl state
  | cons name names ih => exact (GrammarState.Balanced.declare state name .ordinary).trans (ih _)

theorem definitionAfter_balances (serves : sub.Serves room) (poised : state.Poised (room + 1))
    (kind : NodeKind) (specifiers : Specifiers) (declared : Declared) :
    (definitionAfter sub kind specifiers declared).Balances state := by
  refine step poised (declareName_balances declared.declarator .ordinary state) fun _ s1 poised => ?_
  refine step poised (inScope_balances poised ?_) fun body s2 _ => pure_balances _ s2
  have parameters := declareAll_balances declared.declarator.parameterNames (s1.mapScopes Scopes.enter)
  have inside : (mapScopes fun scopes =>
      declared.declarator.parameterNames.foldl (·.declare · .ordinary) scopes).Balances
        (s1.mapScopes Scopes.enter) := parameters
  refine step poised.enter inside fun _ s2 poised => ?_
  exact (compoundStatement_builds serves poised.fits).balances poised

theorem declarationAfter_balances (serves : sub.Serves room) (poised : state.Poised room)
    (specifiers : Specifiers) {definition : Declared → Option (Rule Node)}
    (bodied : ∀ declared body, definition declared = some body → ∀ state : GrammarState,
      state.Poised room → body.Balances state) :
    (declarationAfter sub specifiers definition).Balances state := by
  refine accept_bind poised.weaken (fun semicolon s1 _ => pure_balances _ s1) ?_
  refine step poised (declared_balances serves poised) fun first s1 poised => ?_
  unfold Balances
  dsimp only
  rw [meets_bind, meets_check]
  split
  · rename_i _ _ body found _
    split at found
    · cases found
    · exact bodied first body found s1 poised
  · exact Balances.made (declarationRest_balances serves poised.weaken _ first)

theorem asDeclaration_balances (serves : sub.Serves room) (poised : state.Poised (room + 1))
    (specifiers : Specifiers) (first : Declared) :
    (kernelAfter.asDeclaration sub specifiers first).Balances state :=
  (declarationRest_balances serves poised .ordinary first).made

theorem kernelAfter_balances (serves : sub.Serves room) (poised : state.Poised room)
    (specifiers : Specifiers) : (kernelAfter sub specifiers).Balances state := by
  refine step poised ((requiredDeclarator_builds serves poised.fits).balances poised)
    fun declarator s1 poised => ?_
  split
  · refine step poised ((attributes_builds serves poised.fits.weaken).balances poised)
      fun attributes s2 poised => ?_
    unfold Balances
    rw [meets_bind, meets_check]
    split
    · exact definitionAfter_balances serves poised.weaken _ specifiers _
    · refine step poised (report_balances _ s2) fun _ s3 poised => ?_
      exact asDeclaration_balances serves poised.weaken specifiers _
  · refine step poised (report_balances _ s1) fun _ s2 poised => ?_
    refine step poised ((attributes_builds serves poised.fits.weaken).balances poised)
      fun attributes s3 poised => ?_
    exact asDeclaration_balances serves poised.weaken specifiers _

/-- A declaration begins with at least one token. -/
theorem declarationSpecifiers_takes (serves : sub.Serves room) (poised : state.Poised (room + 1)) :
    (declarationSpecifiers sub).Takes (fun _ => True) state := by
  refine (declarationSpecifiers_reads serves poised.fits).mono ?_ ?_
  · rintro specifiers after ⟨nonempty, _, reads⟩
    exact ⟨reads.balanced poised.scope, fun _ => reads.remaining_lt (by simpa using nonempty)⟩
  · rintro _ _ ⟨_, _, reads⟩
    exact reads.balanced poised.scope

theorem externalDeclaration_balances (serves : sub.Serves room) (poised : state.Poised (room + 1)) :
    (externalDeclaration sub).Balances state := by
  refine Takes.step (declarationSpecifiers_takes serves poised) fun specifiers s1 balanced fewer => ?_
  have poised := poised.behind_pred balanced (fewer trivial)
  split
  · exact kernelAfter_balances serves poised specifiers
  · refine declarationAfter_balances serves poised specifiers fun declared body found s2 poised => ?_
    split at found
    · cases found
      exact definitionAfter_balances serves poised.weaken _ specifiers declared
    · cases found

theorem topLevelItem_balances (serves : sub.Serves room) (poised : state.Poised (room + 1)) :
    (topLevelItem sub).Balances state := by
  unfold topLevelItem Balances
  rw [meets_bind, meets_currentKind]
  split
  · exact (pragmaLine_builds poised.fits).balances poised
  · exact (directiveLine_builds poised.fits).balances poised
  · exact externalDeclaration_balances serves poised

theorem skipToSync_balances (poised : state.Poised room) (level : RecoveryLevel) (skipped : List Token) :
    (skipToSync level skipped).Balances state := by
  refine loop_balances poised skipped fun soFar middle poised => ?_
  unfold Takes
  rw [meets_bind, meets_current]
  cases current : middle.cursor.peek? 0 with
  | none => exact pure_takes nofun middle
  | some token =>
    dsimp only
    rw [meets_bind, meets_scopes]
    split
    · exact pure_takes nofun middle
    · refine Takes.bind (advance_takes poised current) fun _ s1 _ _ => ?_
      split
      · exact pure_balances _ s1
      · exact pure_balances _ s1

/-- Where dots are read as dots already, a recovery leaves that as it is. -/
theorem recover_balances (poised : state.Poised room) (start : Snapshot) (error : ParseError)
    (level : RecoveryLevel) : (recover start error level).Balances state := by
  refine step poised (report_balances error state) fun _ s1 poised => ?_
  have normal : s1.Balanced { s1 with cursor := s1.cursor.setMode .normal } :=
    ⟨rfl, rfl, rfl, poised.fits.lawful.mode.symm, List.suffix_rfl⟩
  have turned : (setMode .normal).Balances s1 := normal
  refine step poised turned fun _ s2 poised => ?_
  unfold Balances
  rw [meets_bind, meets_get]
  exact Balances.made (skipToSync_balances poised level _)

theorem recovering_balances (poised : state.Poised room) (level : RecoveryLevel) {item : Rule Node}
    (balances : item.Balances state) : (recovering level item).Balances state := by
  unfold recovering snapshot Balances
  rw [meets_bind, meets_bind, meets_get, meets_pure, meets_bind, meets_attempt]
  refine Meets.mono balances (fun _ _ balanced => balanced) fun error after front => ?_
  refine (recover_balances (poised.behind front) _ error level).mono ?_ ?_
  · exact fun _ _ back => front.trans back
  · exact fun _ _ back => front.trans back

theorem arraySuffix_balances (serves : sub.Serves room) (poised : state.Poised (room + 1))
    (inner : Option Node) : (arraySuffix sub inner).Balances state := by
  refine expect_bind poised fun opener s1 poised => ?_
  have size := (serves.expression .assignment poised.fits).balances poised
  refine step poised (unlessAt_balances (only_balances size)) fun size s2 poised => ?_
  exact expect_bind poised.weaken fun closer s3 _ => pure_balances _ s3

theorem functionSuffix_balances (serves : sub.Serves room) (poised : state.Poised (room + 1))
    (inner : Option Node) : (functionSuffix sub inner).Balances state :=
  ((parameterList_builds serves poised.fits).balances poised).made

theorem callSuffix_takes (serves : sub.Serves room) (poised : state.Poised (room + 1)) (callee : Node) :
    (callSuffix sub callee).Takes (fun _ => True) state := by
  have takes := (argumentList_builds serves poised.fits).takes poised fun _ => List.cons_ne_nil _ _
  refine takes.bind fun arguments s1 _ _ => ?_
  unfold Balances
  rw [meets_bind, meets_scopes]
  split
  · exact pure_balances _ s1
  · exact pure_balances _ s1

theorem subscriptSuffix_takes (serves : sub.Serves room) (poised : state.Poised (room + 1)) (array : Node) :
    (subscriptSuffix sub array).Takes (fun _ => True) state := by
  refine (expect_takes poised _).bind fun opener s1 balanced fewer => ?_
  have poised := poised.behind_pred balanced fewer
  refine step poised ((serves.expression .comma poised.fits).balances poised) fun index s2 poised => ?_
  exact expect_bind poised.weaken fun closer s3 _ => pure_balances _ s3

theorem memberSuffix_takes (poised : state.Poised (room + 1)) (record : Node) :
    (memberSuffix record).Takes (fun _ => True) state := by
  unfold memberSuffix Takes
  rw [meets_bind, meets_current]
  cases current : state.cursor.peek? 0 with
  | none => exact failExpecting_takes _ state
  | some token =>
    dsimp only
    split
    · refine Takes.bind (advance_takes poised current) fun _ s1 balanced _ => ?_
      exact expect_bind (poised.behind balanced) fun name s2 _ => pure_balances _ s2
    · exact failExpecting_takes _ state

theorem accessor_takes {token : Token} (poised : state.Poised room)
    (found : (state.cursor.setMode .suffix).peek? 0 = some token) :
    (inMode .suffix advance).Takes (fun _ => True) state := by
  refine (inMode_advance_meets found).mono (fun _ _ reads => ?_) ?_
  · exact ⟨reads.balanced poised.scope, fun _ => reads.remaining_lt (List.cons_ne_nil _ _)⟩
  · rintro _ _ ⟨_, _, reads⟩
    exact reads.balanced poised.scope

/-- Whatever a suffix follows, dots are read as dots again behind it. -/
theorem suffix?_takes (serves : sub.Serves room) (poised : state.Poised (room + 1)) (inner : Node) :
    (suffix? sub inner).Takes (·.isSome = true) state := by
  have onward {rule : Rule Node} (takes : rule.Takes (fun _ => True) state) :
      (rule >>= fun outer => pure (some outer)).Takes (·.isSome = true) state :=
    takes.made
  have update {token : Token} (found : (state.cursor.setMode .suffix).peek? 0 = some token)
      (plain : token.kind ≠ .swizzle) (outer : Node) :
      (advance >>= fun _ => pure (some outer)).Takes (·.isSome = true) state :=
    Takes.made (advance_takes poised (peek?_of_suffix poised.fits.lawful found plain))
  unfold suffix? Takes
  rw [meets_inMode_current]
  cases found : (state.cursor.setMode .suffix).peek? 0 with
  | none => exact pure_takes nofun state
  | some token =>
    dsimp only
    split
    · exact onward (callSuffix_takes serves poised inner)
    · exact onward (subscriptSuffix_takes serves poised inner)
    · split
      · exact Takes.made (accessor_takes poised found)
      · exact onward (memberSuffix_takes poised inner)
    · exact onward (memberSuffix_takes poised inner)
    · exact onward (memberSuffix_takes poised inner)
    · rename_i increment
      exact update found (by rw [suffixOperator?_eq_some increment]; simp) _
    · rename_i decrement
      exact update found (by rw [suffixOperator?_eq_some decrement]; simp) _
    · exact pure_takes nofun state

theorem suffixes_balances (serves : sub.Serves room) (poised : state.Poised (room + 1)) (inner : Node) :
    (suffixes sub inner).Balances state := by
  refine loop_balances poised inner fun inner middle poised => ?_
  unfold Takes
  rw [meets_bind]
  refine (suffix?_takes serves poised inner).mono (fun found after outcome => ?_) fun _ _ balanced => balanced
  cases found with
  | none => exact ⟨outcome.1, nofun⟩
  | some outer => exact ⟨outcome.1, fun _ => outcome.2 rfl⟩

theorem afterParenthesizedType_balances (serves : sub.Serves room) (poised : state.Poised room)
    (parts : ParenthesizedType) : (afterParenthesizedType sub parts).Balances state := by
  have cast : (afterParenthesizedType.cast sub parts).Balances state := by
    exact Balances.made ((serves.castBinds poised.fits).builds.balances poised)
  unfold afterParenthesizedType Balances
  rw [meets_bind, meets_currentKind]
  split
  · refine step poised ((initializerList_builds serves poised.weaken.fits).builds.balances poised)
      fun list s1 poised => ?_
    exact suffixes_balances serves poised.weaken _
  · split
    · refine step poised ((argumentList_builds serves poised.weaken.fits).balances poised)
        fun arguments s1 poised => ?_
      exact suffixes_balances serves poised.weaken _
    · exact cast
  · exact cast

theorem conditionalRest_balances (serves : sub.Serves room) (poised : state.Poised room) (condition : Node)
    (question : Token) : (conditionalRest sub condition question).Balances state := by
  refine step poised ((serves.expression .comma poised.fits).balances poised)
    fun consequence s1 poised => ?_
  refine expect_bind poised.weaken fun colon s2 poised => ?_
  exact Balances.made ((serves.expression .conditional poised.fits).balances poised)

theorem extend?_takes (serves : sub.Serves room) (poised : state.Poised (room + 1)) (least : Level)
    (left : Node) : (extend? sub least left).Takes (·.isSome = true) state := by
  unfold extend? Takes
  rw [meets_bind, meets_current]
  cases current : state.cursor.peek? 0 with
  | none => exact pure_takes nofun state
  | some token =>
    dsimp only
    split
    · exact pure_takes nofun state
    · rename_i operator _
      split
      · exact pure_takes nofun state
      · refine Takes.bind (advance_takes poised current) fun _ s1 balanced fewer => ?_
        have poised := poised.behind_pred balanced fewer
        split
        · exact (conditionalRest_balances serves poised left token).made
        · exact Balances.made ((serves.expression operator.rightLevel poised.fits).balances poised)

theorem jumpStatement_balances (poised : state.Poised room) (keyword : Keyword) (kind : NodeKind) :
    (jumpStatement keyword kind).Balances state := by
  refine step poised (expect_takes poised _).balances fun word s1 poised => ?_
  refine step poised (expect_takes poised _).balances fun semicolon s2 _ => ?_
  exact pure_balances _ s2

/-- An attempt that fails takes nothing. -/
theorem tryParenthesizedType_takes (serves : sub.Serves room) (poised : state.Poised (room + 1)) :
    (tryParenthesizedType sub).Takes (·.isSome = true) state := by
  refine (tryParenthesizedType_meets serves poised.fits).mono (fun found after outcome => ?_) ?_
  · cases found with
    | none =>
      obtain rfl : after = state := outcome
      exact pure_takes nofun after
    | some parts =>
      have reads : Reads state (pieces parts) after := outcome
      exact ⟨reads.balanced poised.scope, fun _ => reads.remaining_lt (List.cons_ne_nil _ _)⟩
  · rintro _ _ ⟨_, _, reads⟩
    exact reads.balanced poised.scope

end Rule

end OpenCLTree

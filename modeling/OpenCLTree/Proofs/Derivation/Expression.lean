import OpenCLTree.Proofs.Derivation.Suffixes

namespace OpenCLTree

namespace Rule

variable {tokens : List Token} {sub : Grammar} {first state : GrammarState}

theorem parenthesizedExpression_derives (derives : sub.Derives tokens) :
    (parenthesizedExpression sub).Derives tokens := by
  intro state ready
  refine (Derivation.nothing ready).step expect_derives fun opener _ _ sofar => ?_
  refine sofar.step (nested_derives (derives.expression _)) fun inner _ _ sofar => ?_
  refine sofar.step expect_derives fun closer _ _ sofar => ?_
  exact sofar.wrap (by simp) rfl

theorem stringLiteral_derives : stringLiteral.Derives tokens := by
  intro state ready
  refine (Derivation.nothing ready).step (many_derives fun {state} ready => ?_)
    fun strings _ _ sofar => ?_
  · refine (Derivation.nothing ready).step accept_derives fun found _ readString sofar => ?_
    cases found with
    | none => exact sofar
    | some token => exact readString.leaf _ rfl
  · split
    · exact sofar.fails _
    · exact sofar
    · exact sofar.wrap (by simp) rfl

theorem primaryExpression_derives (derives : sub.Derives tokens) :
    (primaryExpression sub).Derives tokens := by
  intro state ready
  have leaf {token : Token} {kind : NodeKind} (current : state.cursor.peek? 0 = some token)
      (quiet : kind.isQuiet = true) :
      (do advance; pure (Node.ofToken kind token) : Rule Node).Leads state
        (fun node after => Derivation tokens state (parts node) after) (Onward tokens state) :=
    (Derivation.nothing ready).stepAt (advance_leads ready current)
      fun _ _ readToken _ => readToken.leaf _ quiet
  unfold primaryExpression
  rw [leads_bind, leads_current]
  cases current : state.cursor.peek? 0 with
  | none => exact (Derivation.nothing ready).fails _
  | some token =>
    dsimp only
    split
    · exact leaf current rfl
    · exact leaf current rfl
    · exact leaf current rfl
    · exact stringLiteral_derives ready
    · exact parenthesizedExpression_derives derives ready
    · exact (Derivation.nothing ready).fails _

theorem argumentList_derives (derives : sub.Derives tokens) : (argumentList sub).Derives tokens := by
  intro state ready
  refine (Derivation.nothing ready).step expect_derives fun opener _ _ sofar => ?_
  refine sofar.step (commaSeparated_derives (derives.expression _)) fun arguments _ _ sofar => ?_
  refine sofar.step expect_derives fun closer _ _ sofar => ?_
  exact sofar.wrap (by simp) rfl

/-- What the suffix of an expression promises: the whole stands for the expression and the suffix. -/
abbrev Continues (tokens : List Token) (rule : Rule Node) (first state : GrammarState) : Prop :=
  rule.Leads state (fun outer after => Derivation tokens first [outer.toChild] after)
    (Onward tokens first)

theorem callSuffix_continues {callee : Node} (derives : sub.Derives tokens)
    (sofar : Derivation tokens first [callee.toChild] state) :
    Continues tokens (callSuffix sub callee) first state := by
  refine sofar.step (argumentList_derives derives) fun arguments s1 readArguments _ => ?_
  rw [leads_bind, leads_scopes]
  cases builtin : builtinCallee? s1.scopes callee with
  | some name => exact sofar.builtinCall readArguments builtin
  | none => exact sofar.call readArguments builtin

theorem subscriptSuffix_continues {array : Node} (derives : sub.Derives tokens)
    (sofar : Derivation tokens first [array.toChild] state) :
    Continues tokens (subscriptSuffix sub array) first state := by
  refine sofar.step expect_derives fun opener _ _ sofar => ?_
  refine sofar.step (derives.expression _) fun index _ _ sofar => ?_
  refine sofar.step expect_derives fun closer _ _ sofar => ?_
  exact sofar.wrap (by simp) rfl

theorem memberSuffix_continues {record : Node} (sofar : Derivation tokens first [record.toChild] state)
    (apart : record.mayBeVector = true → ∀ leaf, (state.cursor.setMode .suffix).peek? 0 = some leaf →
      leaf.kind ≠ .swizzle) : Continues tokens (memberSuffix record) first state := by
  unfold Continues memberSuffix
  rw [leads_bind, leads_current]
  cases current : state.cursor.peek? 0 with
  | none => exact sofar.fails _
  | some token =>
    dsimp only
    split
    · rename_i isOperator
      refine sofar.stepAt (advance_leads sofar.ready current) fun _ s1 readOperator whole => ?_
      refine whole.stepWith (expect_leads whole.ready) fun name _ known readName _ => ?_
      exact sofar.member readOperator readName current isOperator known.1 known.2 apart
    · exact sofar.fails _

theorem leads_inMode_current {α : Type} {mode : LexMode} {next : Option Token → Rule α}
    {done : α → GrammarState → Prop} {failed : GrammarState → Prop} :
    (inMode mode current >>= next).Leads state done failed ↔
      (next ((state.cursor.setMode mode).peek? 0)).Leads state done failed := by
  rw [leads_bind]
  rfl

/-- What is no accessor is the same token in every mode. -/
theorem peek?_of_suffix_ready {token : Token} (ready : state.Ready tokens)
    (found : (state.cursor.setMode .suffix).peek? 0 = some token) (plain : token.kind ≠ .swizzle) :
    state.cursor.peek? 0 = some token := by
  refine peek?_of_suffix ⟨ready.mode, fun word member accessor joined => ?_⟩ found plain
  have here := ready.place
  unfold GrammarState.At at here
  rw [here] at member
  exact Word.accessor_isSwizzle member joined

theorem inMode_advance_leads {accessor : Token} {done : Unit → GrammarState → Prop}
    {failed : GrammarState → Prop} (found : (state.cursor.setMode .suffix).peek? 0 = some accessor)
    (passes : ∀ rest, Word.read? .suffix state.cursor.rest = some (accessor, rest) →
      done () (state.pass accessor rest)) :
    (inMode .suffix advance).Leads state done failed := by
  unfold Cursor.peek? Word.peek? at found
  obtain ⟨⟨token, rest⟩, read, rfl⟩ := Option.map_eq_some_iff.mp found
  unfold inMode
  rw [leads_bind, leads_get]
  dsimp only
  rw [leads_bind, setMode, leads_modify, leads_closing, advance, leads_modify]
  simp only [Cursor.advance?, read, Option.map_some]
  exact passes rest read

theorem suffix?_leads {inner : Node} (derives : sub.Derives tokens)
    (sofar : Derivation tokens first [inner.toChild] state) :
    (suffix? sub inner).Leads state
      (fun found after => Derivation tokens first (parts (found.getD inner)) after)
      (Onward tokens first) := by
  have update {token : Token} (found : (state.cursor.setMode .suffix).peek? 0 = some token)
      (plain : token.kind ≠ .swizzle) :
      (do advance; pure (some (.make .updateExpression
        [inner.as .argument, token.as .operator])) : Rule (Option Node)).Leads state
        (fun found after => Derivation tokens first (parts (found.getD inner)) after)
        (Onward tokens first) := by
    have current := peek?_of_suffix_ready sofar.ready found plain
    refine sofar.stepAt (advance_leads sofar.ready current) fun _ _ _ sofar => ?_
    exact sofar.wrap (by simp) rfl
  unfold suffix?
  rw [leads_inMode_current]
  cases found : (state.cursor.setMode .suffix).peek? 0 with
  | none => exact sofar
  | some token =>
    have isToken (leaf : Token) (here : (state.cursor.setMode .suffix).peek? 0 = some leaf) :
        leaf = token := (Option.some.inj (found.symm.trans here)).symm
    dsimp only
    split
    · rw [leads_bind]
      exact callSuffix_continues derives sofar
    · rw [leads_bind]
      exact subscriptSuffix_continues derives sofar
    · rename_i isSwizzle
      split
      · rename_i vector
        rw [leads_bind]
        exact inMode_advance_leads found fun rest read =>
          sofar.swizzle vector read (suffixOperator?_eq_some isSwizzle)
      · rename_i scalar
        rw [leads_bind]
        exact memberSuffix_continues sofar fun vector => absurd vector scalar
    · rename_i isDot
      rw [leads_bind]
      refine memberSuffix_continues sofar fun _ leaf here => ?_
      rw [isToken leaf here, suffixOperator?_eq_some isDot]
      nofun
    · rename_i isArrow
      rw [leads_bind]
      refine memberSuffix_continues sofar fun _ leaf here => ?_
      rw [isToken leaf here, suffixOperator?_eq_some isArrow]
      nofun
    · rename_i increment
      exact update found (by rw [suffixOperator?_eq_some increment]; nofun)
    · rename_i decrement
      exact update found (by rw [suffixOperator?_eq_some decrement]; nofun)
    · exact sofar

theorem suffixes_continues {inner : Node} (derives : sub.Derives tokens)
    (sofar : Derivation tokens first [inner.toChild] state) :
    Continues tokens (suffixes sub inner) first state := by
  refine Leads.loop (fun inner after => Derivation tokens first [inner.toChild] after) ?_ sofar
  intro inner s1 sofar
  rw [leads_bind]
  refine (suffix?_leads derives sofar).mono (fun found after read => ?_) fun _ keeps => keeps
  cases found with
  | none => exact read
  | some outer => exact read

theorem postfixExpression_derives (derives : sub.Derives tokens) :
    (postfixExpression sub).Derives tokens := by
  intro state ready
  refine (Derivation.nothing ready).step (primaryExpression_derives derives) fun primary _ _ sofar => ?_
  exact suffixes_continues derives sofar

theorem parenthesizedType_derives (derives : sub.Derives tokens) :
    (parenthesizedType sub).Derives tokens := by
  intro state ready
  refine (Derivation.nothing ready).step expect_derives fun opener _ _ sofar => ?_
  refine sofar.step (typeDescriptor_derives derives) fun type _ _ sofar => ?_
  refine sofar.step accept_derives fun found _ _ sofar => ?_
  cases found with
  | none => exact sofar.toOnward
  | some closer => exact sofar

/-- An attempt that fails leaves no trace. -/
theorem tryParenthesizedType_derives (derives : sub.Derives tokens) :
    (tryParenthesizedType sub).Derives tokens := by
  intro state ready
  unfold tryParenthesizedType snapshot
  rw [leads_bind, leads_bind, leads_get, leads_pure, leads_bind]
  refine leads_attempt _ ((parenthesizedType_derives derives ready).mono (fun _ _ read => read) ?_)
  intro after keeps error
  have reports : state.reports <+: after.reports.take state.reports.length :=
    ⟨[], (List.append_nil _).trans (List.prefix_iff_eq_take.mp keeps.reports)⟩
  exact Derivation.still ready rfl reports keeps.scopes.undoTo_mark

theorem typeInParens_derives (derives : sub.Derives tokens) : (typeInParens sub).Derives tokens := by
  intro state ready
  unfold typeInParens
  rw [leads_bind, leads_startsTypeNameAt]
  split
  · exact tryParenthesizedType_derives derives ready
  · exact .nothing ready

theorem leadingType_derives (derives : sub.Derives tokens) : (leadingType sub).Derives tokens := by
  intro state ready
  unfold leadingType
  rw [leads_bind, leads_check]
  split
  · exact typeInParens_derives derives ready
  · exact .nothing ready

theorem designators_derives (derives : sub.Derives tokens) : (designators sub).Derives tokens := by
  refine many_derives fun {state} ready => ?_
  rw [leads_bind, leads_currentKind]
  split
  · refine (Derivation.nothing ready).step expect_derives fun dot _ _ sofar => ?_
    refine sofar.step expect_derives fun name after readName _ => ?_
    have designator : Derivation tokens state
        [(Node.make .fieldDesignator [dot, Node.ofToken .fieldIdentifier name]).toChild] after :=
      (sofar.join (readName.leaf .fieldIdentifier rfl)).wrap (by simp) rfl
    simpa using designator
  · refine (Derivation.nothing ready).step expect_derives fun opener _ _ sofar => ?_
    refine sofar.step (derives.expression _) fun index _ _ sofar => ?_
    refine sofar.step expect_derives fun closer after _ sofar => ?_
    have designator : Derivation tokens state
        [(Node.make .subscriptDesignator [opener, index, closer]).toChild] after :=
      sofar.wrap (by simp) rfl
    simpa using designator
  · exact .nothing ready

theorem initializerPair_derives (derives : sub.Derives tokens) : (initializerPair sub).Derives tokens := by
  intro state ready
  refine (Derivation.nothing ready).step (designators_derives derives) fun designators _ _ sofar => ?_
  refine sofar.step expect_derives fun assign _ _ sofar => ?_
  refine sofar.step derives.initializer fun value _ _ sofar => ?_
  exact sofar.wrap (by simp) rfl

theorem initializerList_derives (derives : sub.Derives tokens) : (initializerList sub).Derives tokens := by
  intro state ready
  refine (Derivation.nothing ready).step expect_derives fun opener _ _ sofar => ?_
  refine sofar.step (commaSeparated_derives fun {state} ready => ?_) fun entries _ _ sofar => ?_
  · rw [leads_bind, leads_currentKind]
    split
    · exact initializerPair_derives derives ready
    · exact initializerPair_derives derives ready
    · exact derives.initializer ready
  · refine sofar.step expect_derives fun closer _ _ sofar => ?_
    exact sofar.wrap (by simp) rfl

theorem afterParenthesizedType_leads {parts' : ParenthesizedType} (derives : sub.Derives tokens)
    (sofar : Derivation tokens first (parts parts') state) :
    Continues tokens (afterParenthesizedType sub parts') first state := by
  have cast : Continues tokens (afterParenthesizedType.cast sub parts') first state := by
    refine sofar.step derives.castExpression fun value _ _ sofar => ?_
    exact sofar.wrap (by simp [ParenthesizedType.children]) rfl
  unfold Continues afterParenthesizedType
  rw [leads_bind, leads_currentKind]
  split
  · refine sofar.step (initializerList_derives derives) fun list _ _ sofar => ?_
    exact suffixes_continues derives (sofar.wrap (by simp [ParenthesizedType.children]) rfl)
  · split
    · refine sofar.step (argumentList_derives derives) fun arguments _ _ sofar => ?_
      exact suffixes_continues derives (sofar.wrap (by simp [ParenthesizedType.children]) rfl)
    · exact cast
  · exact cast

theorem sizeofExpression_derives (derives : sub.Derives tokens) :
    (sizeofExpression sub).Derives tokens := by
  intro state ready
  refine (Derivation.nothing ready).step expect_derives fun word _ _ sofar => ?_
  refine sofar.step (leadingType_derives derives) fun found _ _ sofar => ?_
  cases found with
  | some parts' => exact sofar.wrap (by simp [ParenthesizedType.children]) rfl
  | none =>
    refine sofar.step (nested_derives derives.unaryExpression) fun value _ _ sofar => ?_
    exact sofar.wrap (by simp) rfl

theorem alignofExpression_derives (derives : sub.Derives tokens) :
    (alignofExpression sub).Derives tokens := by
  intro state ready
  refine (Derivation.nothing ready).step expect_derives fun word _ _ sofar => ?_
  refine sofar.step expect_derives fun opener _ _ sofar => ?_
  refine sofar.step (typeDescriptor_derives derives) fun type _ _ sofar => ?_
  refine sofar.step expect_derives fun closer _ _ sofar => ?_
  exact sofar.wrap (by simp) rfl

theorem vecStepExpression_derives (derives : sub.Derives tokens) :
    (vecStepExpression sub).Derives tokens := by
  intro state ready
  refine (Derivation.nothing ready).step expect_derives fun word _ _ sofar => ?_
  refine sofar.step (typeInParens_derives derives) fun found _ _ sofar => ?_
  cases found with
  | some parts' => exact sofar.wrap (by simp [ParenthesizedType.children]) rfl
  | none =>
    refine sofar.step expect_derives fun opener _ _ sofar => ?_
    refine sofar.step (derives.expression _) fun value _ _ sofar => ?_
    refine sofar.step expect_derives fun closer _ _ sofar => ?_
    exact sofar.wrap (by simp) rfl

theorem unaryExpression_derives (derives : sub.Derives tokens) :
    (unaryExpression sub).Derives tokens := by
  intro state ready
  unfold unaryExpression
  rw [leads_bind, leads_current]
  cases current : state.cursor.peek? 0 with
  | none => exact (Derivation.nothing ready).fails _
  | some token =>
    have prefixed {kind : NodeKind} {operand : Rule Node} (derives : operand.Derives tokens)
        (loose : kind.isLoose = true) :
        (do advance; let inner ← operand; pure (prefixed kind token inner) : Rule Node).Leads state
          (fun node after => Derivation tokens state (parts node) after) (Onward tokens state) := by
      refine (Derivation.nothing ready).stepAt (advance_leads ready current) fun _ _ _ sofar => ?_
      refine sofar.step derives fun inner _ _ sofar => ?_
      exact sofar.wrap (by simp) loose
    dsimp only
    split
    · exact postfixExpression_derives derives ready
    · exact sizeofExpression_derives derives ready
    · exact alignofExpression_derives derives ready
    · exact vecStepExpression_derives derives ready
    · exact prefixed (nested_derives derives.unaryExpression) rfl
    · exact prefixed (nested_derives derives.unaryExpression) rfl
    · exact prefixed derives.castExpression rfl
    · exact prefixed derives.castExpression rfl
    · exact prefixed derives.castExpression rfl

theorem castExpression_derives (derives : sub.Derives tokens) : (castExpression sub).Derives tokens := by
  refine nested_derives fun {state} ready => ?_
  refine (Derivation.nothing ready).step (leadingType_derives derives) fun found _ _ sofar => ?_
  cases found with
  | some parts' => exact afterParenthesizedType_leads derives sofar
  | none =>
    refine (unaryExpression_derives derives sofar.ready).mono (fun _ _ read => ?_) fun _ keeps =>
      sofar.toOnward.trans keeps
    exact sofar.join read

theorem extend?_leads {least : Level} {left : Node} (derives : sub.Derives tokens)
    (sofar : Derivation tokens first [left.toChild] state) :
    (extend? sub least left).Leads state
      (fun found after => Derivation tokens first (parts (found.getD left)) after)
      (Onward tokens first) := by
  unfold extend?
  rw [leads_bind, leads_current]
  cases current : state.cursor.peek? 0 with
  | none => exact sofar
  | some token =>
    dsimp only
    split
    · exact sofar
    · split
      · exact sofar
      · refine sofar.stepAt (advance_leads sofar.ready current) fun _ _ _ sofar => ?_
        split
        · unfold conditionalRest
          rw [leads_bind]
          refine sofar.step (derives.expression _) fun consequence _ _ sofar => ?_
          refine sofar.step expect_derives fun colon _ _ sofar => ?_
          refine sofar.step (derives.expression _) fun alternative _ _ sofar => ?_
          exact sofar.wrap (by simp) rfl
        · refine sofar.step (derives.expression _) fun right _ _ sofar => ?_
          simp only [leads_pure, Option.getD_some, parts_node, infixed]
          split <;> exact sofar.wrap (by simp) rfl

theorem expression_derives {least : Level} (derives : sub.Derives tokens) :
    (expression sub least).Derives tokens := by
  intro state ready
  refine (Derivation.nothing ready).step (castExpression_derives derives) fun left _ _ sofar => ?_
  refine Leads.loop (fun left after => Derivation tokens state (parts left) after) ?_ sofar
  intro left s1 sofar
  rw [leads_bind]
  refine (extend?_leads derives sofar).mono (fun found after read => ?_) fun _ keeps => keeps
  cases found with
  | none => exact read
  | some larger => exact read

theorem initializer_derives (derives : sub.Derives tokens) : (initializer sub).Derives tokens := by
  intro state ready
  unfold initializer
  rw [leads_bind, leads_check]
  split
  · exact nested_derives (initializerList_derives derives) ready
  · exact expression_derives derives ready

end Rule

end OpenCLTree

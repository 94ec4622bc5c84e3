import OpenCLTree.Proofs.Derivation.Bindings
import OpenCLTree.Grammar.TypeSpecifier

namespace OpenCLTree

namespace Rule

variable {tokens : List Token} {sub : Grammar} {first state : GrammarState}

theorem typeToken_leads {token : Token} {kind : NodeKind} (ready : state.Ready tokens)
    (current : state.cursor.peek? 0 = some token) (quiet : kind.isQuiet = true) :
    (typeToken kind token).Leads state
      (fun node after => Derivation tokens state [node.toChild] after) (Onward tokens state) := by
  refine (Derivation.nothing ready).stepAt (advance_leads ready current) fun _ _ readToken _ => ?_
  exact readToken.leaf _ quiet

theorem sizedTypeSpecifier_derives : sizedTypeSpecifier.Derives tokens := by
  intro state ready
  refine (Derivation.nothing ready).step (many_derives fun {state} ready => ?_)
    fun modifiers s1 _ sofar => ?_
  · rw [leads_bind, leads_current]
    cases current : state.cursor.peek? 0 with
    | none => exact .nothing ready
    | some token =>
      dsimp only
      split
      · exact (Derivation.nothing ready).stepAt (advance_leads ready current) fun _ _ _ sofar => sofar
      · exact .nothing ready
  · rw [leads_bind, leads_current]
    cases base : s1.cursor.peek? 0 with
    | none => exact sofar.wrap (by simp) rfl
    | some token =>
      dsimp only
      split
      case h_5 => exact sofar.wrap (by simp) rfl
      all_goals
        refine sofar.stepAt (advance_leads sofar.ready base) fun _ s2 readBase _ => ?_
        exact (sofar.join (readBase.leaf .primitiveType rfl)).wrap (by simp) rfl

theorem pipeType_derives (derives : sub.Derives tokens) : (pipeType sub).Derives tokens := by
  intro state ready
  refine (Derivation.nothing ready).step expect_derives fun word _ _ sofar => ?_
  refine sofar.step derives.typeSpecifier fun element _ _ sofar => ?_
  exact sofar.wrap (by simp) rfl

theorem typeTag_derives : typeTag.Derives tokens := by
  intro state ready
  refine (Derivation.nothing ready).step accept_derives fun found _ readName sofar => ?_
  cases found with
  | none => exact sofar
  | some name => exact readName.typeTag

theorem bitfieldWidth_derives (derives : sub.Derives tokens) : (bitfieldWidth sub).Derives tokens := by
  intro state ready
  refine (Derivation.nothing ready).step accept_derives fun found _ _ sofar => ?_
  cases found with
  | none => exact sofar
  | some colon =>
    refine sofar.step (derives.expression _) fun value after _ sofar => ?_
    have clause : Derivation tokens state [(Node.make .bitfieldClause [colon, value]).toChild] after :=
      sofar.wrap (by simp) rfl
    simpa using clause

theorem fieldDeclarators_derives (derives : sub.Derives tokens) :
    (fieldDeclarators sub).Derives tokens := by
  intro state ready
  unfold fieldDeclarators
  refine Leads.loop (fun soFar after => Derivation tokens state (parts soFar) after) ?_ (.nothing ready)
  intro soFar s1 sofar
  refine sofar.step (unlessAt_derives (only_derives (requiredDeclarator_derives derives)
    fun _ => by simp)) fun declarator _ _ sofar => ?_
  refine sofar.step (bitfieldWidth_derives derives) fun width _ _ sofar => ?_
  refine sofar.step (attributes_derives derives) fun attributes _ _ sofar => ?_
  refine sofar.step accept_derives fun found _ _ sofar => ?_
  cases found with
  | none => simpa using sofar
  | some comma => simpa using sofar

theorem fieldDeclaration_derives (derives : sub.Derives tokens) :
    (fieldDeclaration sub).Derives tokens := by
  intro state ready
  refine (Derivation.nothing ready).step derives.declarationSpecifiers fun specifiers _ _ sofar => ?_
  refine sofar.step (unlessAt_derives (fieldDeclarators_derives derives)) fun members _ _ sofar => ?_
  refine sofar.step expect_derives fun semicolon _ _ sofar => ?_
  exact sofar.wrap (by simp) rfl

theorem fieldDeclarationList_derives (derives : sub.Derives tokens) :
    (fieldDeclarationList sub).Derives tokens := by
  intro state ready
  refine (Derivation.nothing ready).step expect_derives fun opener _ _ sofar => ?_
  refine sofar.step (many_derives fun {state} ready => ?_) fun members _ _ sofar => ?_
  · have member {rule : Rule Node} (derives : rule.Derives tokens) :
        (do pure (some (← rule).toChild) : Rule (Option Child)).Derives tokens := fun ready =>
      (Derivation.nothing ready).step derives fun _ _ _ sofar => sofar
    rw [leads_bind, leads_currentKind]
    split
    · exact .nothing ready
    · exact .nothing ready
    · exact member pragmaLine_derives ready
    · exact member directiveLine_derives ready
    · exact member (fieldDeclaration_derives derives) ready
  · refine sofar.step expect_derives fun closer _ _ sofar => ?_
    exact sofar.wrap (by simp) rfl

theorem recordSpecifier_derives {keyword : Keyword} {kind : NodeKind} (derives : sub.Derives tokens)
    (loose : kind.isLoose = true) : (recordSpecifier sub keyword kind).Derives tokens := by
  intro state ready
  refine (Derivation.nothing ready).step expect_derives fun word _ _ sofar => ?_
  refine sofar.step (attributes_derives derives) fun before _ _ sofar => ?_
  refine sofar.step typeTag_derives fun tag _ _ sofar => ?_
  dsimp only
  rw [leads_bind, leads_check]
  split
  · refine sofar.step (nested_derives (fieldDeclarationList_derives derives)) fun body _ _ sofar => ?_
    refine sofar.step (attributes_derives derives) fun after _ _ sofar => ?_
    exact sofar.wrap (by simp) loose
  · split
    · exact sofar.fails _
    · exact sofar.wrap (by simp) loose

theorem enumerator_derives (derives : sub.Derives tokens) : (enumerator sub).Derives tokens := by
  intro state ready
  refine (Derivation.nothing ready).step expect_derives fun name s1 readName _ => ?_
  have declared : Onward tokens state (s1.mapScopes (·.declare name.text .ordinary)) :=
    readName.toOnward.still rfl List.prefix_rfl (s1.scopes.since_declare _ _)
  rw [leads_bind, declare, mapScopes, leads_modify]
  refine ((Derivation.nothing declared.ready).step accept_derives fun found _ _ sofar => ?_
    : Leads _ (s1.mapScopes (·.declare name.text .ordinary)) _ _).mono (fun _ _ read => read)
    fun _ keeps => declared.trans keeps
  cases found with
  | none => exact .enumerator readName (by simpa using sofar) (.inl rfl)
  | some assign =>
    refine sofar.step (derives.expression _) fun value _ _ sofar => ?_
    exact .enumerator readName (by simpa using sofar) (.inr ⟨assign, value, rfl⟩)

theorem enumeratorList_derives (derives : sub.Derives tokens) : (enumeratorList sub).Derives tokens := by
  intro state ready
  refine (Derivation.nothing ready).step expect_derives fun opener _ _ sofar => ?_
  refine sofar.step (commaSeparated_derives (enumerator_derives derives)) fun entries _ _ sofar => ?_
  refine sofar.step expect_derives fun closer _ _ sofar => ?_
  exact sofar.wrap (by simp) rfl

theorem enumSpecifier_derives (derives : sub.Derives tokens) : (enumSpecifier sub).Derives tokens := by
  intro state ready
  refine (Derivation.nothing ready).step expect_derives fun word _ _ sofar => ?_
  refine sofar.step (attributes_derives derives) fun before _ _ sofar => ?_
  refine sofar.step typeTag_derives fun tag _ _ sofar => ?_
  dsimp only
  rw [leads_bind, leads_check]
  split
  · refine sofar.step (enumeratorList_derives derives) fun body _ _ sofar => ?_
    exact sofar.wrap (by simp) rfl
  · split
    · exact sofar.fails _
    · exact sofar.wrap (by simp) rfl

theorem typeSpecifier_derives (derives : sub.Derives tokens) : (typeSpecifier sub).Derives tokens := by
  intro state ready
  unfold typeSpecifier
  rw [leads_bind, leads_current]
  cases current : state.cursor.peek? 0 with
  | none => exact (Derivation.nothing ready).fails _
  | some token =>
    dsimp only
    split
    case h_1 | h_2 | h_3 | h_4 => exact sizedTypeSpecifier_derives ready
    case h_15 => exact pipeType_derives derives ready
    case h_16 => exact recordSpecifier_derives derives rfl ready
    case h_17 => exact recordSpecifier_derives derives rfl ready
    case h_18 => exact enumSpecifier_derives derives ready
    case h_19 =>
      rw [leads_bind, leads_scopes]
      split
      · rename_i isType
        refine (Derivation.nothing ready).stepAt (advance_leads ready current) fun _ _ readToken _ => ?_
        exact readToken.typeName isType
      · exact (Derivation.nothing ready).fails _
    case h_20 => exact (Derivation.nothing ready).fails _
    all_goals exact typeToken_leads ready current rfl

theorem declarationSpecifiers_derives (derives : sub.Derives tokens) :
    (declarationSpecifiers sub).Derives tokens := by
  intro state ready
  unfold declarationSpecifiers
  have nothing : Derivation tokens state (parts (⟨[], .empty⟩ : Specifiers)) state := .nothing ready
  rw [leads_bind]
  refine (qualifiers_leads derives nothing).mono ?_ fun _ keeps => keeps
  intro before s1 sofar
  rw [leads_bind, leads_current]
  cases current : s1.cursor.peek? 0 with
  | none => exact sofar.fails _
  | some token =>
    dsimp only
    rw [leads_bind, leads_startsType]
    split
    · refine sofar.step (typeSpecifier_derives derives) fun type s2 _ sofar => ?_
      exact qualifiers_leads derives (by simpa using sofar)
    · exact sofar.fails _

end Rule

end OpenCLTree

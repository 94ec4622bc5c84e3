import OpenCLTree.Proofs.Derivation.Specifiers

namespace OpenCLTree

namespace Rule

variable {tokens : List Token} {sub : Grammar} {first state : GrammarState} {mode : DeclaratorMode}

@[simp]
theorem declaratorChild_tagged (inner : Option Node) :
    (declaratorChild inner).map Child.tagged = parts inner := by
  cases inner <;> simp [declaratorChild]

theorem requiredDeclarator_derives (derives : sub.Derives tokens) :
    (requiredDeclarator sub mode).Derives tokens := by
  intro state ready
  refine (Derivation.nothing ready).step (nested_derives (derives.declarator mode))
    fun found _ _ sofar => ?_
  cases found with
  | none => exact sofar.fails _
  | some declarator => exact sofar

theorem parenOpensDeclarator_leads {done : Bool → GrammarState → Prop} {failed : GrammarState → Prop}
    (either : ∀ opens, done opens state) : (parenOpensDeclarator mode).Leads state done failed := by
  unfold parenOpensDeclarator
  split
  · exact either true
  · rw [leads_bind, leads_peek]
    split
    · exact either false
    · split <;> exact either _

theorem parenthesizedDeclarator_derives (derives : sub.Derives tokens) :
    (parenthesizedDeclarator sub mode).Derives tokens := by
  intro state ready
  refine (Derivation.nothing ready).step expect_derives fun opener _ _ sofar => ?_
  refine sofar.step (requiredDeclarator_derives derives) fun inner _ _ sofar => ?_
  refine sofar.step expect_derives fun closer _ _ sofar => ?_
  exact sofar.wrap (by simp) (by split <;> rfl)

theorem parameterDeclaration_derives (derives : sub.Derives tokens) :
    (parameterDeclaration sub).Derives tokens := by
  intro state ready
  refine (Derivation.nothing ready).step derives.declarationSpecifiers fun specifiers _ _ sofar => ?_
  refine sofar.step (derives.declarator .either) fun declarator _ _ sofar => ?_
  refine sofar.step (attributes_derives derives) fun attributes _ _ sofar => ?_
  exact sofar.wrap (by simp) rfl

theorem parameters_derives (derives : sub.Derives tokens) : (parameters sub).Derives tokens := by
  intro state ready
  unfold parameters
  refine Leads.loop (fun soFar after => Derivation tokens state (parts soFar) after) ?_ (.nothing ready)
  intro soFar s1 sofar
  rw [leads_bind, leads_check]
  split
  · exact sofar
  · refine sofar.step accept_derives fun found s2 readEllipsis withEllipsis => ?_
    cases found with
    | some ellipsis =>
      have variadic : Derivation tokens s1 [(Node.ofToken .variadicParameter ellipsis).toChild] s2 :=
        readEllipsis.leaf _ rfl
      simpa using sofar.join variadic
    | none =>
      refine withEllipsis.step (parameterDeclaration_derives derives) fun parameter _ _ sofar => ?_
      refine sofar.step accept_derives fun found _ _ sofar => ?_
      cases found with
      | none => simpa using sofar
      | some comma => simpa using sofar

theorem parameterList_derives (derives : sub.Derives tokens) : (parameterList sub).Derives tokens := by
  intro state ready
  refine (Derivation.nothing ready).step expect_derives fun opener _ _ sofar => ?_
  refine sofar.step (parameters_derives derives) fun entries _ _ sofar => ?_
  refine sofar.step expect_derives fun closer _ _ sofar => ?_
  exact sofar.wrap (by simp) rfl

theorem declaratorCore_derives (derives : sub.Derives tokens) :
    (declaratorCore sub mode).Derives tokens := by
  intro state ready
  unfold declaratorCore
  rw [leads_bind, leads_current]
  cases current : state.cursor.peek? 0 with
  | none => exact .nothing ready
  | some token =>
    dsimp only
    split
    · split
      · refine (Derivation.nothing ready).stepAt (advance_leads ready current) fun _ _ readName _ => ?_
        exact readName.leaf _ (by split <;> rfl)
      · exact .nothing ready
    · rw [leads_bind]
      refine parenOpensDeclarator_leads fun opens => ?_
      split
      · exact (Derivation.nothing ready).step (nested_derives (parenthesizedDeclarator_derives derives))
          fun _ _ _ sofar => sofar
      · exact .nothing ready
    · exact .nothing ready

theorem arraySuffix_leads {inner : Option Node} (derives : sub.Derives tokens)
    (sofar : Derivation tokens first (parts inner) state) :
    (arraySuffix sub inner).Leads state
      (fun node after => Derivation tokens first [node.toChild] after) (Onward tokens first) := by
  refine sofar.step expect_derives fun opener _ _ sofar => ?_
  refine sofar.step (unlessAt_derives (only_derives (derives.expression _) fun _ => by simp))
    fun size _ _ sofar => ?_
  refine sofar.step expect_derives fun closer _ _ sofar => ?_
  exact sofar.wrap (by simp) (by split <;> rfl)

theorem functionSuffix_leads {inner : Option Node} (derives : sub.Derives tokens)
    (sofar : Derivation tokens first (parts inner) state) :
    (functionSuffix sub inner).Leads state
      (fun node after => Derivation tokens first [node.toChild] after) (Onward tokens first) := by
  refine sofar.step (parameterList_derives derives) fun list _ _ sofar => ?_
  exact sofar.wrap (by simp) (by split <;> rfl)

theorem directDeclarator_derives (derives : sub.Derives tokens) :
    (directDeclarator sub mode).Derives tokens := by
  intro state ready
  refine (Derivation.nothing ready).step (declaratorCore_derives derives) fun core _ _ sofar => ?_
  split
  · exact sofar.fails _
  · refine Leads.loop (fun inner after => Derivation tokens state (parts inner) after) ?_ sofar
    intro inner s2 sofar
    rw [leads_bind, leads_currentKind]
    split
    · rw [leads_bind]
      exact arraySuffix_leads derives sofar
    · rw [leads_bind]
      exact functionSuffix_leads derives sofar
    · exact sofar

theorem declarator_derives (derives : sub.Derives tokens) : (declarator sub mode).Derives tokens := by
  intro state ready
  refine (Derivation.nothing ready).step accept_derives fun found s1 _ sofar => ?_
  cases found with
  | none =>
    refine (directDeclarator_derives derives sofar.ready).mono (fun _ _ read => ?_) fun _ keeps =>
      sofar.toOnward.trans keeps
    exact sofar.join read
  | some star =>
    refine sofar.step pointerQualifiers_derives fun qualifiers _ _ sofar => ?_
    refine sofar.step (derives.declarator mode) fun inner _ _ sofar => ?_
    cases inner with
    | some inner => exact sofar.wrap (by simp) (by split <;> rfl)
    | none =>
      dsimp only
      split
      · exact sofar.fails _
      · exact sofar.wrap (by simp) rfl

end Rule

end OpenCLTree

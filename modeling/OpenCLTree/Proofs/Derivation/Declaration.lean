import OpenCLTree.Proofs.Derivation.Declaring
import OpenCLTree.Proofs.Derivation.Opening

namespace OpenCLTree

open Rule

theorem Specifiers.Proper.declaring {tokens : List Token} {sort : NameSort}
    {first state : GrammarState} {specifiers : Specifiers} (proper : specifiers.Proper)
    (ready : first.Ready tokens) (read : Derivation tokens first (parts specifiers) state) :
    Declaring tokens sort first specifiers.children none state :=
  (Declaring.nothing ready).others _ read fun child member => by
    rcases proper.fields child member with none | type
    · simp [none]
    · simp [type]

/-- One rule after another where a name that is pending has been declared. -/
theorem Declaring.step {α β : Type} [HasChildren β] {tokens : List Token} {sort : NameSort}
    {first last state : GrammarState} {front : List Child} {pending : Option Node}
    {rule : Rule β} {next : β → Rule α} {done : α → GrammarState → Prop}
    (sofar : Declaring tokens sort first front pending last)
    (settled : Derivation tokens (last.settle sort pending) [] state) (derives : rule.Derives tokens)
    (goesOn : ∀ value after, Onward tokens state after →
      Derivation tokens (last.settle sort pending) (parts value) after →
      (next value).Leads after done (Onward tokens first)) :
    (rule >>= next).Leads state done (Onward tokens first) := by
  have behind : Onward tokens first (last.settle sort pending) :=
    sofar.toOnward.still rfl List.prefix_rfl (last.since_settle _ _)
  rw [leads_bind]
  refine (derives settled.ready).mono (fun value after read => goesOn value after read.toOnward ?_)
    fun _ failed => behind.trans (settled.toOnward.trans failed)
  exact settled.join read

namespace Rule

variable {tokens : List Token} {sub : Grammar} {first middle state : GrammarState}
  {sort : NameSort} {front : List Child}

theorem declareName_leads {declarator : Node} {done : Unit → GrammarState → Prop}
    {failed : GrammarState → Prop} (here : done () (state.settle sort (some declarator))) :
    (declareName declarator sort).Leads state done failed := by
  change done () (state.mapScopes (·.bind sort declarator)) at here
  unfold declareName
  unfold Scopes.bind at here
  cases named : declarator.declaratorName? with
  | some name =>
    simp only [named] at here ⊢
    exact here
  | none =>
    simp only [named] at here ⊢
    exact here

theorem declared_derives (derives : sub.Derives tokens) : (declared sub).Derives tokens := by
  intro state ready
  refine (Derivation.nothing ready).step (requiredDeclarator_derives derives) fun declarator _ _ sofar => ?_
  refine sofar.step (attributes_derives derives) fun attributes _ _ sofar => ?_
  simpa using sofar

section Declared

variable {declared : Declared}

/-- The name of a declarator without an initializer is declared, but still pending as far as the
children tell. -/
theorem initDeclarator_leads (derives : sub.Derives tokens) (proper : declared.Proper)
    (before : Declaring tokens sort first front none middle)
    (atName : Derivation tokens middle (parts declared) state) :
    (initDeclarator sub sort declared).Leads state
      (fun added after => Onward tokens state after ∧ ∃ pending last,
        Declaring tokens sort first (front ++ added) pending last ∧
          Derivation tokens (last.settle sort pending) [] after)
      (Onward tokens first) := by
  have named := before.declarator proper atName
  have settled : Derivation tokens (state.settle sort (some declared.declarator)) [] _ :=
    .nothing (atName.ready.still rfl)
  have passed : Onward tokens state (state.settle sort (some declared.declarator)) :=
    (Onward.refl atName.ready).still rfl List.prefix_rfl (state.since_settle _ _)
  unfold initDeclarator
  rw [leads_bind]
  refine declareName_leads (named.step settled accept_derives fun found assigned kept read => ?_)
  have passed := passed.trans kept
  cases found with
  | none => exact ⟨passed, some declared.declarator, state, named, read⟩
  | some assign =>
    refine (named.token read).step (.nothing read.ready) derives.initializer
      fun value last kept atValue => ⟨passed.trans kept, none, last, ?_, .nothing atValue.ready⟩
    exact before.initDeclarator proper atName read atValue

theorem declarationRest_leads (derives : sub.Derives tokens) (proper : declared.Proper)
    (before : Declaring tokens sort first front none middle)
    (atName : Derivation tokens middle (parts declared) state) :
    (declarationRest sub sort declared).Leads state
      (fun rest after => Onward tokens state after ∧ Declaring tokens sort first (front ++ rest) none after)
      (Onward tokens first) := by
  unfold declarationRest
  rw [leads_bind]
  refine Leads.mono (?declarators : Leads _ _ (fun children after => Onward tokens state after ∧
    ∃ pending last, Declaring tokens sort first (front ++ children) pending last ∧
      Derivation tokens (last.settle sort pending) [] after) (Onward tokens first)) ?_ fun _ keeps => keeps
  case declarators =>
    refine Leads.loop (fun current after => current.2.Proper ∧ Onward tokens state after ∧ ∃ middle,
      Declaring tokens sort first (front ++ current.1) none middle ∧
        Derivation tokens middle (parts current.2) after) ?_
      ⟨proper, .refl atName.ready, middle, by simpa using before, atName⟩
    rintro ⟨children, next⟩ s1 ⟨proper, passed, middle, before, atName⟩
    rw [leads_bind]
    refine (initDeclarator_leads derives proper before atName).mono ?_ fun _ keeps => keeps
    rintro added s2 ⟨kept, pending, last, sofar, settled⟩
    refine sofar.step settled accept_derives fun found s3 kept' read => ?_
    have passed := passed.trans (kept.trans kept')
    rw [List.append_assoc] at sofar
    cases found with
    | none => exact ⟨passed, pending, last, sofar, read⟩
    | some comma =>
      have behind := sofar.token read
      rw [leads_bind]
      refine (Derives.withFact (declared_derives derives) (declared_gives derives.declarators)
        read.ready).mono ?_ fun _ failed => behind.toOnward.trans failed
      rintro later s4 ⟨proper, atName⟩
      exact ⟨proper, passed.trans atName.toOnward, s3, by simpa using behind, atName⟩
  rintro children s1 ⟨passed, pending, last, sofar, settled⟩
  refine sofar.step settled expect_derives fun semicolon s2 kept read => ⟨passed.trans kept, ?_⟩
  simpa using sofar.token read

end Declared

section Specified

variable {specifiers : Specifiers} {rest : List Child}

/-- Where a declaration that is no definition of a function ends. -/
theorem declaration_of_declaring (proper : specifiers.Proper) (apart : Child.Apart rest)
    (fields : ∀ child ∈ rest, child.field? ≠ some .type)
    (inside : Declaring tokens (if specifiers.qualifiers.isTypedef then .type else .ordinary) first
      (specifiers.children ++ rest) none state) :
    Derivation tokens first [(Node.make
      (if specifiers.qualifiers.isTypedef then .typeDefinition else .declaration)
      (specifiers.children ++ rest)).toChild] state := by
  refine inside.wrap ?_ (proper.classified_declaration apart fields ?_ fun _ => ?_) <;>
    cases specifiers.qualifiers.isTypedef <;> simp

theorem declarationAfter_leads {definition : Declared → Option (Rule Node)}
    {done : Node → GrammarState → Prop} (derives : sub.Derives tokens) (proper : specifiers.Proper)
    (ready : first.Ready tokens) (sofar : Derivation tokens first (parts specifiers) state)
    (plain : ∀ node after, Derivation tokens first [node.toChild] after →
      node.qualifierSet = specifiers.qualifiers → done node after)
    (bodied : ∀ declared body middle, definition declared = some body →
      specifiers.qualifiers.isTypedef = false → declared.Proper →
      Declaring tokens .ordinary first (specifiers.children ++ declared.children)
        (some declared.declarator) middle → body.Leads middle done (Onward tokens first)) :
    (declarationAfter sub specifiers definition).Leads state done (Onward tokens first) := by
  unfold declarationAfter
  refine sofar.step accept_derives fun found s1 read atNext => ?_
  cases found with
  | some semicolon =>
    refine plain _ _ (declaration_of_declaring proper Child.apart_nil ?_ ?_)
      (proper.qualifierSet Child.apart_nil)
    · exact List.forall_mem_singleton.mpr nofun
    · exact (proper.declaring ready sofar).token read
  | none =>
    refine atNext.stepWith (Derives.withFact (declared_derives derives)
      (declared_gives derives.declarators) read.ready) fun declared s2 isDeclarator atName _ => ?_
    have before (sort : NameSort) : Declaring tokens sort first specifiers.children none s1 :=
      proper.declaring ready (by simpa using atNext)
    dsimp only
    rw [leads_bind, leads_check]
    split
    · rename_i body atBody _
      split at atBody
      · cases atBody
      · rename_i isTypedef
        exact bodied declared body s2 atBody (by simpa using isTypedef) isDeclarator
          ((before .ordinary).declarator isDeclarator atName)
    · rw [leads_bind]
      refine ((declarationRest_leads derives isDeclarator (before _) atName).gives
        (declarationRest_opens derives.declarators isDeclarator)).mono ?_ fun _ keeps => keeps
      rintro rest s3 ⟨opens, _, inside⟩
      exact plain _ _ (declaration_of_declaring proper opens.apart opens.fields inside)
        (proper.qualifierSet opens.apart)

theorem localDeclaration_derives (derives : sub.Derives tokens) : (localDeclaration sub).Derives tokens := by
  intro state ready
  refine (Derivation.nothing ready).stepWith (Derives.withFact (declarationSpecifiers_derives derives)
    declarationSpecifiers_gives ready) fun specifiers s1 proper _ sofar => ?_
  refine declarationAfter_leads derives proper ready sofar (fun _ _ derivation _ => derivation) ?_
  intro declared body middle none
  cases none

end Specified

end Rule

end OpenCLTree

import OpenCLTree.Grammar.TypeSpecifier
import OpenCLTree.Proofs.Tree.Catalogued
import OpenCLTree.Proofs.Yields.Ensures

namespace OpenCLTree

open Rule

variable {branch : Node → Prop}

/-- Whether the specifiers of a declaration fill no field but that of the type. -/
def Specifiers.FillType (branch : Node → Prop) (specifiers : Specifiers) : Prop :=
  Child.FillWith branch [.type] specifiers.children

/-- Whether the rules that others call yield nodes with listed fields alone, in which each `if` has a
further property. -/
structure Grammar.Sound (branch : Node → Prop) (sub : Grammar) : Prop where
  expression : ∀ least, (sub.expression least).Yields (Node.CataloguedWith branch)
  castExpression : sub.castExpression.Yields (Node.CataloguedWith branch)
  unaryExpression : sub.unaryExpression.Yields (Node.CataloguedWith branch)
  initializer : sub.initializer.Yields (Node.CataloguedWith branch)
  typeSpecifier : sub.typeSpecifier.Yields (Node.CataloguedWith branch)
  declarationSpecifiers : sub.declarationSpecifiers.Yields (Specifiers.FillType branch)
  declarator : ∀ mode, (sub.declarator mode).Yields fun found =>
    ∀ node ∈ found, node.CataloguedWith branch
  statement : sub.statement.Yields (Node.CataloguedWith branch)

/-- A child for each node that a rule finds, in no field. -/
theorem Rule.many_yields {step : Rule (Option Child)} {fields : List Field}
    (yields : step.Yields fun found => ∀ child ∈ found, Child.FillWith branch fields [child]) :
    (many step).Yields (Child.FillWith branch fields) := by
  refine ensures_loop (Child.FillWith branch fields) ?_ Child.fill_nil
  intro collected known
  refine yields.bind fun found here => ?_
  cases found with
  | none => exact ensures_pure known
  | some child => exact ensures_pure (Child.fill_append.mpr ⟨known, here child rfl⟩)

theorem Rule.commaSeparated_yields (closer : TokenKind) {item : Rule Node}
    (yields : item.Yields (Node.CataloguedWith branch)) :
    (commaSeparated closer item).Yields (Child.FillWith branch []) := by
  refine ensures_loop (Child.FillWith branch []) ?_ Child.fill_nil
  intro children known
  refine (check_ensures closer).next fun stops => ?_
  split
  · exact ensures_pure known
  · refine yields.bind fun node catalogued => ?_
    refine (accept_ensures _).next fun found => ?_
    cases found with
    | none => exact ensures_pure (by simp [known, catalogued])
    | some comma => exact ensures_pure (by simp [known, catalogued])

theorem Rule.only_yields {rule : Rule Node} {fields : List Field} {field : Field}
    (yields : rule.Yields (Node.CataloguedWith branch)) (listed : field ∈ fields) :
    (only (·.as field) rule).Yields (Child.FillWith branch fields) :=
  yields.bind fun node catalogued => ensures_pure (by simp [listed, catalogued])

theorem Qualifier.nodeKind_ne_ifStatement (qualifier : Qualifier) :
    qualifier.nodeKind ≠ .ifStatement := by
  cases qualifier <;> decide

theorem qualifierNode_yields (branch : Node → Prop) (qualifier : Qualifier) (token : Token)
    (set : QualifierSet) :
    (qualifierNode qualifier token set).Yields fun result => result.1.CataloguedWith branch := by
  unfold qualifierNode
  split
  · exact ensures_pure (Node.cataloguedWith_ofToken token qualifier.nodeKind_ne_ifStatement)
  · refine (report_ensures ?ordinary).next fun _ => ensures_pure ?_
    · trivial
    · exact Node.cataloguedWith_ofToken token nofun

section Sub

variable {sub : Grammar} (sound : sub.Sound branch)

include sound

theorem typeDescriptor_yields : (typeDescriptor sub).Yields (Node.CataloguedWith branch) := by
  refine sound.declarationSpecifiers.bind fun specifiers fill => ?_
  refine (sound.declarator .unnamed).bind fun found inner => ?_
  cases found with
  | none => exact ensures_pure (by simp +decide [fill.mono])
  | some declarator => exact ensures_pure (by simp +decide [fill.mono, inner declarator rfl])

theorem attributeEntry_yields : (attributeEntry sub).Yields (Node.CataloguedWith branch) := by
  refine current_ensures.next fun found => ?_
  cases found with
  | none => exact failExpecting_yields _
  | some token =>
    dsimp only
    split
    · refine advance_ensures.next fun _ => (check_ensures _).next fun opens => ?_
      split
      · refine (expect_yields _).next fun opener => ?_
        refine Ensures.bind (?arguments : Yields _ (Child.FillWith branch [])) fun arguments fill => ?_
        case arguments =>
          refine commaSeparated_yields _ ((startsTypeNameAt_ensures 0).next fun typed => ?_)
          split
          · exact typeDescriptor_yields sound
          · exact sound.expression _
        refine (expect_yields _).next fun closer => ?_
        exact ensures_pure (by simp +decide [fill.mono])
      · exact ensures_pure (by simp +decide)
    · exact failExpecting_yields _

theorem attributeSpecifier_yields : (attributeSpecifier sub).Yields (Node.CataloguedWith branch) := by
  refine (expect_yields _).next fun word => (expect_yields _).next fun outer => ?_
  refine (expect_yields _).next fun inner => ?_
  refine (commaSeparated_yields _ (attributeEntry_yields sound)).bind fun entries fill => ?_
  refine (expect_yields _).next fun innerEnd => (expect_yields _).next fun outerEnd => ?_
  exact ensures_pure (by simp [fill.mono])

theorem attributes_yields : (attributes sub).Yields (Child.FillWith branch []) := by
  refine many_yields ((check_ensures _).next fun more => ?_)
  split
  · refine (attributeSpecifier_yields sound).bind fun node catalogued => ?_
    exact ensures_pure (by simp [catalogued])
  · exact ensures_pure nofun

theorem qualifiers_yields {specifiers : Specifiers} (fill : specifiers.FillType branch) :
    (qualifiers sub specifiers).Yields (Specifiers.FillType branch) := by
  refine ensures_loop (Specifiers.FillType branch) ?_ fill
  intro soFar fill
  unfold Specifiers.FillType at fill ⊢
  refine current_ensures.next fun found => ?_
  cases found with
  | none => exact ensures_pure fill
  | some token =>
    dsimp only
    split
    · refine advance_ensures.next fun _ => (qualifierNode_yields branch _ _ _).bind ?_
      rintro ⟨node, set⟩ catalogued
      exact ensures_pure (by simp [fill, catalogued])
    · refine (attributeSpecifier_yields sound).bind fun node catalogued => ?_
      exact ensures_pure (by simp [fill, catalogued])
    · exact ensures_pure fill

theorem requiredDeclarator_yields (mode : DeclaratorMode) :
    (requiredDeclarator sub mode).Yields (Node.CataloguedWith branch) := by
  refine (sound.declarator mode).nested.bind fun found catalogued => ?_
  cases found with
  | none => exact failExpecting_yields _
  | some declarator => exact ensures_pure (catalogued declarator rfl)

end Sub

theorem pointerQualifiers_yields (branch : Node → Prop) :
    pointerQualifiers.Yields (Child.FillWith branch []) := by
  refine Ensures.bind (?collected : Yields _ fun soFar : Specifiers =>
    Child.FillWith branch [] soFar.children) fun collected fill => ensures_pure fill
  refine ensures_loop (fun soFar : Specifiers => Child.FillWith branch [] soFar.children)
    ?_ Child.fill_nil
  intro soFar fill
  refine current_ensures.next fun found => ?_
  cases found with
  | none => exact ensures_pure fill
  | some token =>
    dsimp only
    split
    · split
      · refine advance_ensures.next fun _ => (qualifierNode_yields branch _ _ _).bind ?_
        rintro ⟨node, set⟩ catalogued
        exact ensures_pure (by simp [fill, catalogued])
      · exact ensures_pure fill
    · exact ensures_pure fill

theorem parenOpensDeclarator_yields (mode : DeclaratorMode) :
    (parenOpensDeclarator mode).Yields fun _ => True := by
  unfold parenOpensDeclarator
  split
  · exact ensures_pure trivial
  · refine (peek_ensures 1).next fun found => ?_
    cases found with
    | none => exact ensures_pure trivial
    | some token =>
      dsimp only
      split
      · exact ensures_pure trivial
      · exact ensures_pure trivial
      · exact ensures_pure trivial
      · exact scopes_ensures.next fun _ => ensures_pure trivial
      · exact ensures_pure trivial

/-- Whether a declarator, where there is one, has listed fields alone. -/
theorem fill_declaratorChild {declarator : Option Node} {fields : List Field}
    (catalogued : ∀ node ∈ declarator, node.CataloguedWith branch) (listed : .declarator ∈ fields) :
    Child.FillWith branch fields (declaratorChild declarator) := by
  cases declarator with
  | none => exact Child.fill_nil
  | some node => simp [declaratorChild, listed, catalogued node rfl]

section Sub

variable {sub : Grammar} (sound : sub.Sound branch)

include sound

theorem parenthesizedDeclarator_yields (mode : DeclaratorMode) :
    (parenthesizedDeclarator sub mode).Yields (Node.CataloguedWith branch) := by
  refine (expect_yields _).next fun opener => ?_
  refine (requiredDeclarator_yields sound mode).bind fun inner catalogued => ?_
  refine (expect_yields _).next fun closer => ensures_pure ?_
  split <;> simp [catalogued]

theorem parameterDeclaration_yields :
    (parameterDeclaration sub).Yields (Node.CataloguedWith branch) := by
  refine sound.declarationSpecifiers.bind fun specifiers fill => ?_
  refine (sound.declarator .either).bind fun declarator catalogued => ?_
  refine (attributes_yields sound).bind fun attributes fillNone => ?_
  exact ensures_pure (by simp +decide [fill.mono, fill_declaratorChild catalogued, fillNone.mono])

theorem parameters_yields : (parameters sub).Yields (Child.FillWith branch []) := by
  refine ensures_loop (Child.FillWith branch []) ?_ Child.fill_nil
  intro soFar fill
  refine (check_ensures _).next fun stops => ?_
  split
  · exact ensures_pure fill
  · refine (accept_ensures _).next fun found => ?_
    cases found with
    | some ellipsis => exact ensures_pure (by simp [fill])
    | none =>
      refine (parameterDeclaration_yields sound).bind fun parameter catalogued => ?_
      refine (accept_ensures _).next fun found => ?_
      cases found with
      | none => exact ensures_pure (by simp [fill, catalogued])
      | some comma => exact ensures_pure (by simp [fill, catalogued])

theorem parameterList_yields : (parameterList sub).Yields (Node.CataloguedWith branch) := by
  refine (expect_yields _).next fun opener => ?_
  refine (parameters_yields sound).bind fun entries fill => ?_
  refine (expect_yields _).next fun closer => ?_
  exact ensures_pure (by simp [fill.mono])

theorem declaratorCore_yields (mode : DeclaratorMode) :
    (declaratorCore sub mode).Yields fun found => ∀ node ∈ found, node.CataloguedWith branch := by
  refine current_ensures.next fun found => ?_
  cases found with
  | none => exact ensures_pure nofun
  | some token =>
    dsimp only
    split
    · split
      · exact advance_ensures.next fun _ => ensures_pure (by split <;> simp)
      · exact ensures_pure nofun
    · refine (parenOpensDeclarator_yields mode).next fun opens => ?_
      split
      · have yields := parenthesizedDeclarator_yields sound mode
        refine yields.nested.bind fun node catalogued => ?_
        exact ensures_pure (by simpa using catalogued)
      · exact ensures_pure nofun
    · exact ensures_pure nofun

variable {inner : Option Node} (catalogued : ∀ node ∈ inner, node.CataloguedWith branch)

include catalogued

theorem arraySuffix_yields : (arraySuffix sub inner).Yields (Node.CataloguedWith branch) := by
  refine (expect_yields _).next fun opener => ?_
  have size : (unlessAt (.punct .rightBracket)
      (only (·.as .size) (sub.expression .assignment))).Yields
        (Child.FillWith branch [.declarator, .size]) :=
    (only_yields (sound.expression _) (by simp)).unlessAt _ Child.fill_nil
  refine size.bind fun size fill => (expect_yields _).next fun closer => ensures_pure ?_
  split <;> simp +decide [fill_declaratorChild catalogued, fill.mono]

theorem functionSuffix_yields : (functionSuffix sub inner).Yields (Node.CataloguedWith branch) := by
  refine (parameterList_yields sound).bind fun list listed => ensures_pure ?_
  split <;> simp +decide [fill_declaratorChild catalogued, listed]

end Sub

section Sub

variable {sub : Grammar} (sound : sub.Sound branch)

include sound

theorem directDeclarator_yields (mode : DeclaratorMode) :
    (directDeclarator sub mode).Yields fun found => ∀ node ∈ found, node.CataloguedWith branch := by
  refine (declaratorCore_yields sound mode).bind fun core known => ?_
  split
  · exact failExpecting_yields _
  · refine ensures_loop (fun inner : Option Node => ∀ node ∈ inner, node.CataloguedWith branch)
      ?_ known
    intro inner known
    refine currentKind_ensures.next fun kind => ?_
    split
    · refine (arraySuffix_yields sound known).bind fun node catalogued => ?_
      exact ensures_pure (by simpa using catalogued)
    · refine (functionSuffix_yields sound known).bind fun node catalogued => ?_
      exact ensures_pure (by simpa using catalogued)
    · exact ensures_pure known

theorem declarator_yields (mode : DeclaratorMode) :
    (declarator sub mode).Yields fun found => ∀ node ∈ found, node.CataloguedWith branch := by
  refine (accept_ensures _).next fun found => ?_
  cases found with
  | none => exact directDeclarator_yields sound mode
  | some star =>
    refine (pointerQualifiers_yields branch).bind fun qualifiers fill => ?_
    refine (sound.declarator mode).bind fun found known => ?_
    cases found with
    | some inner =>
      have catalogued := known inner rfl
      refine ensures_pure fun node made => ?_
      cases made
      split <;> simp +decide [fill.mono, catalogued]
    | none =>
      dsimp only
      split
      · exact failExpecting_yields _
      · exact ensures_pure (by simp [fill.mono])

end Sub

end OpenCLTree

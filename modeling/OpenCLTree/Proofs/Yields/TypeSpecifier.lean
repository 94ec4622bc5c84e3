import OpenCLTree.Proofs.Yields.Declarator

namespace OpenCLTree

open Rule

variable {branch : Node → Prop}

theorem restOfLine_yields : restOfLine.Yields fun _ => True := by
  refine Ensures.mono (?tokens : Yields _ fun tokens => ∀ token ∈ tokens, True)
    (fun _ _ => trivial) fun _ ordinary => ordinary
  refine ensures_many (current_ensures.next fun found => ?_)
  cases found with
  | none => exact ensures_pure nofun
  | some token =>
    dsimp only
    split
    · exact ensures_pure nofun
    · exact advance_ensures.next fun _ => ensures_pure fun _ _ => trivial

theorem pragmaNode_catalogued (marker : Token) (line : List Token) :
    (pragmaNode marker line).CataloguedWith branch := by
  have other : (pragmaNode.otherLine marker line).CataloguedWith branch := by
    simp [pragmaNode.otherLine]
  unfold pragmaNode
  split
  · split
    · simp +decide
    · exact other
  · split
    · simp +decide
    · exact other
  · exact other

theorem pragmaLine_yields : pragmaLine.Yields (Node.CataloguedWith branch) :=
  (expect_yields _).next fun _ => restOfLine_yields.next fun _ =>
    ensures_pure (pragmaNode_catalogued _ _)

theorem directiveLine_yields : directiveLine.Yields (Node.CataloguedWith branch) :=
  (expect_yields _).next fun _ => restOfLine_yields.next fun _ =>
    ensures_pure (by simp +decide)

theorem sizedTypeSpecifier_yields : sizedTypeSpecifier.Yields (Node.CataloguedWith branch) := by
  refine Ensures.bind (?modifiers : Yields _ (Child.FillWith branch [])) fun modifiers fill => ?_
  case modifiers =>
    refine many_yields (current_ensures.next fun found => ?_)
    cases found with
    | none => exact ensures_pure nofun
    | some token =>
      dsimp only
      split
      · exact advance_ensures.next fun _ => ensures_pure (by simp)
      · exact ensures_pure nofun
  have alone : (Node.make .sizedTypeSpecifier modifiers).CataloguedWith branch :=
    (Node.cataloguedWith_make (by decide)).mpr fill
  refine current_ensures.next fun found => ?_
  cases found with
  | none => exact ensures_pure alone
  | some token =>
    have last : (advance >>= fun _ => pure (Node.make .sizedTypeSpecifier
        (modifiers ++ [(Node.ofToken .primitiveType token).toChild]))).Yields
          (Node.CataloguedWith branch) :=
      advance_ensures.next fun _ => ensures_pure (by simp [fill.mono])
    dsimp only
    split
    · exact last
    · exact last
    · exact last
    · exact last
    · exact ensures_pure alone

theorem typeTag_yields (branch : Node → Prop) :
    typeTag.Yields (Child.FillWith branch [.name]) := by
  refine (accept_ensures _).next fun found => ?_
  cases found with
  | none => exact ensures_pure Child.fill_nil
  | some name => exact ensures_pure (by simp)

theorem typeToken_yields {kind : NodeKind} (other : kind ≠ .ifStatement) (token : Token) :
    (typeToken kind token).Yields (Node.CataloguedWith branch) :=
  advance_ensures.next fun _ => ensures_pure (Node.cataloguedWith_ofToken token other)

variable {sub : Grammar} (sound : sub.Sound branch)

include sound

theorem pipeType_yields : (pipeType sub).Yields (Node.CataloguedWith branch) := by
  refine (expect_yields _).next fun word => ?_
  refine sound.typeSpecifier.bind fun element catalogued => ?_
  exact ensures_pure (by simp +decide [catalogued])

theorem bitfieldWidth_yields : (bitfieldWidth sub).Yields (Child.FillWith branch [.declarator]) := by
  refine (accept_ensures _).next fun found => ?_
  cases found with
  | none => exact ensures_pure Child.fill_nil
  | some colon =>
    refine (sound.expression _).bind fun value catalogued => ?_
    exact ensures_pure (by simp [catalogued])

theorem fieldDeclarators_yields :
    (fieldDeclarators sub).Yields (Child.FillWith branch [.declarator]) := by
  refine ensures_loop (Child.FillWith branch [.declarator]) ?_ Child.fill_nil
  intro soFar known
  have declarator : (unlessAt (.punct .colon)
      (only (·.as .declarator) (requiredDeclarator sub .member))).Yields
        (Child.FillWith branch [.declarator]) :=
    (only_yields (requiredDeclarator_yields sound .member) (by simp)).unlessAt _ Child.fill_nil
  refine declarator.bind fun declarator name => ?_
  refine (bitfieldWidth_yields sound).bind fun width bits => ?_
  refine (attributes_yields sound).bind fun attributes fillNone => ?_
  refine (accept_ensures _).next fun found => ?_
  cases found with
  | none => exact ensures_pure (by simp [known, name, bits, fillNone.mono])
  | some comma => exact ensures_pure (by simp [known, name, bits, fillNone.mono])

theorem fieldDeclaration_yields : (fieldDeclaration sub).Yields (Node.CataloguedWith branch) := by
  refine sound.declarationSpecifiers.bind fun specifiers fill => ?_
  have members := (fieldDeclarators_yields sound).unlessAt (.punct .semicolon) Child.fill_nil
  refine members.bind fun members declared => (expect_yields _).next fun semicolon => ?_
  exact ensures_pure (by simp +decide [fill.mono, declared.mono])

theorem fieldDeclarationList_yields :
    (fieldDeclarationList sub).Yields (Node.CataloguedWith branch) := by
  have child {rule : Rule Node} (yields : rule.Yields (Node.CataloguedWith branch)) :
      (rule >>= fun node => pure (some node.toChild)).Yields
        fun found => ∀ child ∈ found, Child.FillWith branch [] [child] :=
    yields.bind fun node catalogued => ensures_pure (by simp [catalogued])
  refine (expect_yields _).next fun opener => ?_
  refine Ensures.bind (?members : Yields _ (Child.FillWith branch [])) fun members fill => ?_
  case members =>
    refine many_yields (currentKind_ensures.next fun kind => ?_)
    split
    · exact ensures_pure nofun
    · exact ensures_pure nofun
    · exact child pragmaLine_yields
    · exact child directiveLine_yields
    · exact child (fieldDeclaration_yields sound)
  refine (expect_yields _).next fun closer => ?_
  exact ensures_pure (by simp [fill.mono])

theorem recordSpecifier_yields (keyword : Keyword) {kind : NodeKind}
    (fields : kind.fields = [.name, .body]) :
    (recordSpecifier sub keyword kind).Yields (Node.CataloguedWith branch) := by
  have other : kind ≠ .ifStatement := NodeKind.ne_ifStatement_of_fields (by simp [fields])
  refine (expect_yields _).next fun word => ?_
  refine (attributes_yields sound).bind fun before front => ?_
  refine (typeTag_yields branch).bind fun tag name => ?_
  refine (check_ensures _).next fun opens => ?_
  split
  · refine (Yields.nested (fieldDeclarationList_yields sound)).bind fun body catalogued => ?_
    refine (attributes_yields sound).bind fun after back => ?_
    exact ensures_pure (by simp [other, fields, front.mono, name.mono, catalogued, back.mono])
  · split
    · exact failExpecting_yields _
    · exact ensures_pure (by simp [other, fields, front.mono, name.mono])

theorem enumerator_yields : (enumerator sub).Yields (Node.CataloguedWith branch) := by
  refine (expect_yields _).next fun name => (mapScopes_ensures _).next fun _ => ?_
  refine (accept_ensures _).next fun found => ?_
  cases found with
  | none => exact ensures_pure (by simp +decide)
  | some assign =>
    refine (sound.expression _).bind fun value catalogued => ?_
    exact ensures_pure (by simp +decide [catalogued])

theorem enumeratorList_yields : (enumeratorList sub).Yields (Node.CataloguedWith branch) := by
  refine (expect_yields _).next fun opener => ?_
  refine (commaSeparated_yields _ (enumerator_yields sound)).bind fun entries fill => ?_
  refine (expect_yields _).next fun closer => ?_
  exact ensures_pure (by simp [fill.mono])

theorem enumSpecifier_yields : (enumSpecifier sub).Yields (Node.CataloguedWith branch) := by
  refine (expect_yields _).next fun word => ?_
  refine (attributes_yields sound).bind fun before front => ?_
  refine (typeTag_yields branch).bind fun tag name => ?_
  refine (check_ensures _).next fun opens => ?_
  split
  · refine (enumeratorList_yields sound).bind fun body catalogued => ?_
    exact ensures_pure (by simp +decide [front.mono, name.mono, catalogued])
  · split
    · exact failExpecting_yields _
    · exact ensures_pure (by simp +decide [front.mono, name.mono])

theorem typeSpecifier_yields : (typeSpecifier sub).Yields (Node.CataloguedWith branch) := by
  refine current_ensures.next fun found => ?_
  cases found with
  | none => exact failExpecting_yields _
  | some token =>
    dsimp only
    split
    · exact sizedTypeSpecifier_yields
    · exact sizedTypeSpecifier_yields
    · exact sizedTypeSpecifier_yields
    · exact sizedTypeSpecifier_yields
    all_goals first | exact typeToken_yields (by decide) _ | skip
    · exact pipeType_yields sound
    · exact recordSpecifier_yields sound _ rfl
    · exact recordSpecifier_yields sound _ rfl
    · exact enumSpecifier_yields sound
    · refine scopes_ensures.next fun scopes => ?_
      split
      · exact typeToken_yields (by decide) _
      · exact failExpecting_yields _
    · exact failExpecting_yields _

theorem declarationSpecifiers_yields :
    (declarationSpecifiers sub).Yields (Specifiers.FillType branch) := by
  have nothing : Specifiers.FillType branch ⟨[], .empty⟩ := Child.fill_nil
  refine (qualifiers_yields sound nothing).bind fun before fill => ?_
  refine current_ensures.next fun found => ?_
  cases found with
  | none => exact failExpecting_yields _
  | some token =>
    refine (startsType_ensures token).next fun starts => ?_
    split
    · refine (typeSpecifier_yields sound).bind fun type catalogued => ?_
      have typed : Child.FillWith branch [.type] (before.children ++ [type.as .type]) :=
        Child.fill_append.mpr ⟨fill, by simp [catalogued]⟩
      exact qualifiers_yields sound typed
    · exact failExpecting_yields _

end OpenCLTree

import OpenCLTree.Proofs.Reading
import OpenCLTree.Proofs.Yields.Statement

namespace OpenCLTree

open Rule

variable {branch : Node → Prop} {sub : Grammar} (sound : sub.Sound branch)

include sound

theorem definitionAfter_yields {kind : NodeKind} (fields : kind.fields = [.type, .declarator, .body])
    {specifiers : Specifiers} (fill : specifiers.FillType branch) {declared : Declared}
    (known : declared.FillDeclarator branch) :
    (definitionAfter sub kind specifiers declared).Yields (Node.CataloguedWith branch) := by
  refine (declareName_ensures _ _).next fun _ => ?_
  refine Ensures.bind (?body : Yields _ (Node.CataloguedWith branch)) fun body catalogued => ?_
  case body =>
    exact Ensures.inScope ((mapScopes_ensures _).next fun _ => compoundStatement_yields sound)
  have other : kind ≠ .ifStatement := NodeKind.ne_ifStatement_of_fields (by simp [fields])
  exact ensures_pure (by simp [other, fields, fill.mono, known.mono, catalogued])

theorem kernelAfter_yields {specifiers : Specifiers} (fill : specifiers.FillType branch) :
    (kernelAfter sub specifiers).Yields (Node.CataloguedWith branch) := by
  have asDeclaration {declared : Declared} (known : declared.FillDeclarator branch) :
      (kernelAfter.asDeclaration sub specifiers declared).Yields (Node.CataloguedWith branch) := by
    refine (declarationRest_yields sound _ known).bind fun rest declared => ?_
    exact ensures_pure (fill.append declared (by decide))
  refine (requiredDeclarator_yields sound .named).bind fun declarator catalogued => ?_
  have known {attributes : List Child} (fillNone : Child.FillWith branch [] attributes) :
      Declared.FillDeclarator branch ⟨declarator, attributes⟩ := by
    simp [Declared.FillDeclarator, Declared.children, catalogued, fillNone.mono]
  split
  · refine (attributes_yields sound).bind fun attributes fillNone => ?_
    refine (check_ensures _).next fun opens => ?_
    split
    · exact definitionAfter_yields sound rfl fill (known fillNone)
    · refine (report_ensures ?missing).next fun _ => asDeclaration (known fillNone)
      case missing => trivial
  · refine (report_ensures ?unexpected).next fun _ => ?_
    case unexpected => trivial
    refine (attributes_yields sound).bind fun attributes fillNone => ?_
    exact asDeclaration (known fillNone)

theorem externalDeclaration_yields :
    (externalDeclaration sub).Yields (Node.CataloguedWith branch) := by
  refine (declarationSpecifiers_yields sound).bind fun specifiers fill => ?_
  split
  · exact kernelAfter_yields sound fill
  · refine declarationAfter_yields sound fill fun declared known body bodied => ?_
    split at bodied
    · cases bodied
      exact definitionAfter_yields sound rfl fill known
    · cases bodied

theorem topLevelItem_yields : (topLevelItem sub).Yields (Node.CataloguedWith branch) := by
  refine currentKind_ensures.next fun kind => ?_
  split
  · exact pragmaLine_yields
  · exact directiveLine_yields
  · exact externalDeclaration_yields sound

theorem sourceItems_yields :
    (sourceItems sub).Yields fun items => ∀ item ∈ items, item.CataloguedWith branch := by
  refine ensures_many (atEnd_ensures.next fun ended => ?_)
  split
  · exact ensures_pure nofun
  · refine (recovering_ensures (topLevelItem_yields sound) _).bind fun item catalogued => ?_
    exact ensures_pure (by simpa using catalogued)

omit sound

namespace Grammar

theorem exhausted_sound : exhausted.Sound branch where
  expression _ := ensures_exhaust
  castExpression := ensures_exhaust
  unaryExpression := ensures_exhaust
  initializer := ensures_exhaust
  typeSpecifier := ensures_exhaust
  declarationSpecifiers := ensures_exhaust
  declarator _ := ensures_exhaust
  statement := ensures_exhaust

theorem Sound.calling (sound : sub.Sound branch) (branches : (ifStatement sub).Gives branch) :
    sub.calling.Sound branch where
  expression := expression_yields sound
  castExpression := castExpression_yields sound
  unaryExpression := unaryExpression_yields sound
  initializer := initializer_yields sound
  typeSpecifier := typeSpecifier_yields sound
  declarationSpecifiers := declarationSpecifiers_yields sound
  declarator := declarator_yields sound
  statement := statement_yields sound branches

/-- By induction on the room there is for calls: each rule is sound if those that it calls are. -/
theorem ofDepth_soundWith (branches : ∀ depth, (ifStatement (ofDepth depth)).Gives branch)
    (depth : Nat) : (ofDepth depth).Sound branch := by
  induction depth with
  | zero => exact exhausted_sound
  | succ depth ih => exact ih.calling (branches depth)

theorem ofDepth_sound (depth : Nat) : (ofDepth depth).Sound fun _ => True :=
  ofDepth_soundWith (fun _ _ _ _ _ => trivial) depth

end Grammar

/-- What is read from any tokens: trees with listed fields alone, in which each `if` has a property
that the rule for it gives, and ordinary errors. -/
theorem Reading.ofTokens_soundWith
    (branches : ∀ depth, (ifStatement (Grammar.ofDepth depth)).Gives branch) (tokens : List Token) :
    (∀ item ∈ (ofTokens tokens).items, item.CataloguedWith branch) ∧
      ∀ error ∈ (ofTokens tokens).errors, error.IsOrdinary := by
  have yields := sourceItems_yields (Grammar.ofDepth_soundWith branches tokens.length)
  obtain ⟨last, run, errors⟩ := ofTokens_run tokens
  obtain ⟨catalogued, adds⟩ := yields.done run
  refine ⟨catalogued, fun error reported => ?_⟩
  rw [errors] at reported
  rcases adds error reported with before | ordinary
  · cases before
  · exact ordinary

theorem Reading.ofTokens_sound (tokens : List Token) :
    (∀ item ∈ (ofTokens tokens).items, item.Catalogued) ∧
      ∀ error ∈ (ofTokens tokens).errors, error.IsOrdinary :=
  (ofTokens_soundWith (fun _ _ _ _ _ => trivial) tokens).imp_left fun known item member =>
    (known item member).catalogued

end OpenCLTree

import OpenCLTree.Grammar.SourceFile
import OpenCLTree.Proofs.Yields.Expression
import OpenCLTree.Proofs.Yields.TypeSpecifier

namespace OpenCLTree

open Rule

variable {branch : Node → Prop}

/-- Whether a declarator and its attributes fill no field but that of the declarator. -/
def Declared.FillDeclarator (branch : Node → Prop) (declared : Declared) : Prop :=
  Child.FillWith branch [.declarator] declared.children

/-- The specifiers of a declaration and what follows them, as children of a node. -/
theorem Specifiers.FillType.append {specifiers : Specifiers} {children : List Child}
    {kind : NodeKind} (fill : specifiers.FillType branch)
    (rest : Child.FillWith branch [.declarator] children)
    (listed : [.type, .declarator] ⊆ kind.fields) :
    (Node.make kind (specifiers.children ++ children)).CataloguedWith branch := by
  obtain ⟨type, declarator⟩ : .type ∈ kind.fields ∧ .declarator ∈ kind.fields := by
    simpa using listed
  have other : kind ≠ .ifStatement := by
    rintro rfl
    exact absurd type (by decide)
  have front : Child.FillWith branch kind.fields specifiers.children :=
    fill.mono (by simpa using type)
  have back : Child.FillWith branch kind.fields children := rest.mono (by simpa using declarator)
  simp [other, front, back]

theorem declareName_ensures {fails : ParseError → Prop} (declarator : Node) (sort : NameSort) :
    (declareName declarator sort).Ensures (fun _ => True) fails := by
  unfold declareName
  split
  · exact mapScopes_ensures _
  · exact ensures_pure trivial

theorem skipToSync_ensures {fails : ParseError → Prop} (level : RecoveryLevel)
    (skipped : List Token) : (skipToSync level skipped).Ensures (fun _ => True) fails := by
  refine ensures_loop (fun _ => True) ?_ trivial
  intro soFar _
  refine current_ensures.next fun found => ?_
  cases found with
  | none => exact ensures_pure trivial
  | some token =>
    refine scopes_ensures.next fun scopes => ?_
    split
    · exact ensures_pure trivial
    · refine advance_ensures.next fun _ => ?_
      split
      · exact ensures_pure trivial
      · exact ensures_pure trivial

/-- Recovery reports the error that it is given, and makes a node of bare tokens. -/
theorem recover_ensures {fails : ParseError → Prop} (start : Snapshot) {error : ParseError}
    (ordinary : error.IsOrdinary) (level : RecoveryLevel) :
    (recover start error level).Ensures (Node.CataloguedWith branch) fails := by
  refine (report_ensures ordinary).next fun _ => (setMode_ensures _).next fun _ => ?_
  refine ensures_get.next fun state => (skipToSync_ensures _ _).next fun tokens => ?_
  exact ensures_pure (by simp)

theorem recovering_ensures {fails : ParseError → Prop} {item : Rule Node}
    (yields : item.Yields (Node.CataloguedWith branch)) (level : RecoveryLevel) :
    (recovering level item).Ensures (Node.CataloguedWith branch) fails := by
  refine snapshot_ensures.next fun start => yields.attempt.bind fun result known => ?_
  cases result with
  | ok node => exact ensures_pure known
  | error error => exact recover_ensures start known level

theorem jumpStatement_yields (keyword : Keyword) {kind : NodeKind} (other : kind ≠ .ifStatement) :
    (jumpStatement keyword kind).Yields (Node.CataloguedWith branch) := by
  refine (expect_yields _).next fun word => (expect_yields _).next fun semicolon => ?_
  exact ensures_pure (by simp [other])

theorem gotoStatement_yields : gotoStatement.Yields (Node.CataloguedWith branch) := by
  refine (expect_yields _).next fun word => (expect_yields _).next fun label => ?_
  exact (expect_yields _).next fun semicolon => ensures_pure (by simp +decide)

theorem startsLocalDeclaration_ensures {fails : ParseError → Prop} (token : Token) :
    (startsLocalDeclaration token).Ensures (fun _ => True) fails := by
  refine scopes_ensures.next fun scopes => ?_
  split
  · exact (peek_ensures 1).next fun _ => ensures_pure trivial
  · exact ensures_pure trivial

theorem atLocalDeclaration_ensures {fails : ParseError → Prop} :
    atLocalDeclaration.Ensures (fun _ => True) fails := by
  refine current_ensures.next fun found => ?_
  cases found with
  | none => exact ensures_pure trivial
  | some token => exact startsLocalDeclaration_ensures token

variable {sub : Grammar} (sound : sub.Sound branch)

include sound

theorem declared_yields : (declared sub).Yields (Declared.FillDeclarator branch) := by
  refine (requiredDeclarator_yields sound .named).bind fun declarator catalogued => ?_
  refine (attributes_yields sound).bind fun attributes fillNone => ensures_pure ?_
  simp [Declared.FillDeclarator, Declared.children, catalogued, fillNone.mono]

theorem initDeclarator_yields (sort : NameSort) {declared : Declared}
    (fill : declared.FillDeclarator branch) :
    (initDeclarator sub sort declared).Yields (Child.FillWith branch [.declarator]) := by
  refine (declareName_ensures _ _).next fun _ => (accept_ensures _).next fun found => ?_
  cases found with
  | none => exact ensures_pure fill
  | some assign =>
    refine sound.initializer.bind fun value catalogued => ensures_pure ?_
    simp +decide [fill.mono, catalogued]

theorem declarationRest_yields (sort : NameSort) {first : Declared}
    (fill : first.FillDeclarator branch) :
    (declarationRest sub sort first).Yields (Child.FillWith branch [.declarator]) := by
  refine Ensures.bind (?children : Yields _ (Child.FillWith branch [.declarator]))
    fun children known => ?_
  case children =>
    refine ensures_loop (fun state : List Child × Declared =>
      Child.FillWith branch [.declarator] state.1 ∧ state.2.FillDeclarator branch)
      ?_ ⟨Child.fill_nil, fill⟩
    rintro ⟨before, next⟩ ⟨known, fill⟩
    refine (initDeclarator_yields sound sort fill).bind fun declarator here => ?_
    have sofar : Child.FillWith branch [.declarator] (before ++ declarator) :=
      Child.fill_append.mpr ⟨known, here⟩
    refine (accept_ensures _).next fun found => ?_
    cases found with
    | none => exact ensures_pure sofar
    | some comma =>
      refine (declared_yields sound).bind fun declared fill => ?_
      exact ensures_pure ⟨by simpa using sofar, fill⟩
  exact (expect_yields _).next fun semicolon => ensures_pure (by simp [known])

theorem declarationAfter_yields {specifiers : Specifiers} (fill : specifiers.FillType branch)
    {definition : Declared → Option (Rule Node)}
    (defines : ∀ declared : Declared, declared.FillDeclarator branch →
      ∀ body ∈ definition declared, body.Yields (Node.CataloguedWith branch)) :
    (declarationAfter sub specifiers definition).Yields (Node.CataloguedWith branch) := by
  have node {children : List Child} (rest : Child.FillWith branch [.declarator] children) :
      (Node.make (if specifiers.qualifiers.isTypedef then .typeDefinition else .declaration)
        (specifiers.children ++ children)).CataloguedWith branch :=
    fill.append rest (by split <;> decide)
  refine (accept_ensures _).next fun found => ?_
  cases found with
  | some semicolon => exact ensures_pure (node (by simp))
  | none =>
    refine (declared_yields sound).bind fun first known => ?_
    refine (check_ensures _).next fun opens => ?_
    split
    · rename_i body bodied
      split at bodied
      · cases bodied
      · exact defines first known body bodied
    · refine (declarationRest_yields sound _ known).bind fun rest declared => ?_
      exact ensures_pure (node declared)

theorem localDeclaration_yields : (localDeclaration sub).Yields (Node.CataloguedWith branch) := by
  refine (declarationSpecifiers_yields sound).bind fun specifiers fill => ?_
  exact declarationAfter_yields sound fill nofun

theorem blockItem_yields : (blockItem sub).Yields (Node.CataloguedWith branch) := by
  refine atLocalDeclaration_ensures.next fun starts => ?_
  split
  · exact localDeclaration_yields sound
  · exact sound.statement

theorem blockItems_yields (stops : List TokenKind) :
    (blockItems sub stops).Yields (Child.FillWith branch []) := by
  refine many_yields (currentKind_ensures.next fun found => ?_)
  cases found with
  | none => exact ensures_pure nofun
  | some kind =>
    dsimp only
    split
    · exact ensures_pure nofun
    · refine (recovering_ensures (blockItem_yields sound) _).bind fun item catalogued => ?_
      exact ensures_pure (by simp [catalogued])

theorem compoundStatement_yields : (compoundStatement sub).Yields (Node.CataloguedWith branch) := by
  refine (expect_yields _).next fun opener => ?_
  refine (blockItems_yields sound []).inScope.bind fun items fill => ?_
  exact (expect_yields _).next fun closer => ensures_pure (by simp [fill.mono])

/-- The one rule that makes an `if`. -/
theorem ifStatement_yields (branches : (ifStatement sub).Gives branch) :
    (ifStatement sub).Yields (Node.CataloguedWith branch) := by
  suffices parts : (ifStatement sub).Yields fun node => branch node → node.CataloguedWith branch from
    (parts.gives branches).mono (fun _ known => known.1 known.2) fun _ ordinary => ordinary
  refine (expect_yields _).next fun word => ?_
  refine (parenthesizedExpression_yields sound).bind fun condition one => ?_
  refine sound.statement.bind fun consequence two => (accept_ensures _).next fun found => ?_
  cases found with
  | none =>
    refine ensures_pure fun known => Node.cataloguedWith_make_iff.mpr ⟨fun _ => known, ?_⟩
    simp +decide [one, two]
  | some otherwise =>
    refine sound.statement.bind fun body three => ensures_pure fun known => ?_
    refine Node.cataloguedWith_make_iff.mpr ⟨fun _ => known, ?_⟩
    simp +decide [one, two, three]

theorem whileStatement_yields : (whileStatement sub).Yields (Node.CataloguedWith branch) := by
  refine (expect_yields _).next fun word => ?_
  refine (parenthesizedExpression_yields sound).bind fun condition one => ?_
  exact sound.statement.bind fun body two => ensures_pure (by simp +decide [one, two])

theorem doStatement_yields : (doStatement sub).Yields (Node.CataloguedWith branch) := by
  refine (expect_yields _).next fun word => sound.statement.bind fun body one => ?_
  refine (expect_yields _).next fun until_ => ?_
  refine (parenthesizedExpression_yields sound).bind fun condition two => ?_
  refine (expect_yields _).next fun semicolon => ?_
  exact ensures_pure (by simp +decide [one, two])

theorem forInitializer_yields :
    (forInitializer sub).Yields (Child.FillWith branch [.initializer]) := by
  refine (accept_ensures _).next fun found => ?_
  cases found with
  | some semicolon => exact ensures_pure (by simp)
  | none =>
    refine atLocalDeclaration_ensures.next fun starts => ?_
    split
    · refine (localDeclaration_yields sound).bind fun declaration catalogued => ?_
      exact ensures_pure (by simp [catalogued])
    · refine (sound.expression _).bind fun value catalogued => ?_
      exact (expect_yields _).next fun semicolon => ensures_pure (by simp [catalogued])

theorem optionalExpression_yields (field : Field) (closer : TokenKind) :
    (optionalExpression sub field closer).Yields (Child.FillWith branch [field]) := by
  have value : (unlessAt closer (only (·.as field) (sub.expression .comma))).Yields
      (Child.FillWith branch [field]) :=
    (only_yields (sound.expression _) (by simp)).unlessAt closer Child.fill_nil
  refine value.bind fun value fill => (expect_yields _).next fun token => ?_
  exact ensures_pure (by simp [fill])

theorem forStatement_yields : (forStatement sub).Yields (Node.CataloguedWith branch) := by
  refine (expect_yields _).next fun word => (expect_yields _).next fun opener => ?_
  refine Ensures.bind (?rest : Yields _ (Child.FillWith branch NodeKind.forStatement.fields))
    fun rest fill => ?_
  case rest =>
    refine Ensures.inScope ((forInitializer_yields sound).bind fun initializer one => ?_)
    refine (optionalExpression_yields sound .condition _).bind fun condition two => ?_
    refine (optionalExpression_yields sound .update _).bind fun update three => ?_
    refine sound.statement.bind fun body catalogued => ensures_pure ?_
    simp +decide [one.mono, two.mono, three.mono, catalogued]
  exact ensures_pure (by simp [fill])

theorem switchStatement_yields : (switchStatement sub).Yields (Node.CataloguedWith branch) := by
  refine (expect_yields _).next fun word => ?_
  refine (parenthesizedExpression_yields sound).bind fun condition one => ?_
  refine (compoundStatement_yields sound).bind fun body two => ?_
  exact ensures_pure (by simp +decide [one, two])

theorem caseLabel_yields : (caseLabel sub).Yields (Child.FillWith branch [.value]) := by
  refine (accept_ensures _).next fun found => ?_
  cases found with
  | some word =>
    exact (sound.expression _).bind fun value catalogued => ensures_pure (by simp [catalogued])
  | none => exact (expect_yields _).next fun word => ensures_pure (by simp)

theorem caseStatement_yields : (caseStatement sub).Yields (Node.CataloguedWith branch) := by
  refine (caseLabel_yields sound).bind fun label one => (expect_yields _).next fun colon => ?_
  refine (blockItems_yields sound _).bind fun items two => ensures_pure ?_
  simp +decide [one.mono, two.mono]

theorem returnStatement_yields : (returnStatement sub).Yields (Node.CataloguedWith branch) := by
  refine (expect_yields _).next fun word => ?_
  refine Ensures.bind (?value : Yields _ (Child.FillWith branch [])) fun value fill => ?_
  case value =>
    refine Ensures.unlessAt ?_ _ Child.fill_nil
    exact (sound.expression _).bind fun node catalogued => ensures_pure (by simp [catalogued])
  exact (expect_yields _).next fun semicolon => ensures_pure (by simp [fill.mono])

theorem labeledStatement_yields : (labeledStatement sub).Yields (Node.CataloguedWith branch) := by
  refine (expect_yields _).next fun label => (expect_yields _).next fun colon => ?_
  exact sound.statement.bind fun body catalogued =>
    ensures_pure (by simp +decide [catalogued])

theorem expressionStatement_yields :
    (expressionStatement sub).Yields (Node.CataloguedWith branch) := by
  refine Ensures.bind (?value : Yields _ (Child.FillWith branch [])) fun value fill => ?_
  case value =>
    refine Ensures.unlessAt ?_ _ Child.fill_nil
    exact (expression_yields sound _).bind fun node catalogued => ensures_pure (by simp [catalogued])
  exact (expect_yields _).next fun semicolon => ensures_pure (by simp [fill.mono])

theorem statement_yields (branches : (ifStatement sub).Gives branch) :
    (statement sub).Yields (Node.CataloguedWith branch) := by
  refine current_ensures.next fun found => ?_
  cases found with
  | none => exact failExpecting_yields _
  | some token =>
    refine Yields.nested ?_
    split
    · exact Yields.nested (compoundStatement_yields sound)
    · exact ifStatement_yields sound branches
    · exact whileStatement_yields sound
    · exact doStatement_yields sound
    · exact forStatement_yields sound
    · exact switchStatement_yields sound
    · exact caseStatement_yields sound
    · exact caseStatement_yields sound
    · exact returnStatement_yields sound
    · exact jumpStatement_yields _ (by decide)
    · exact jumpStatement_yields _ (by decide)
    · exact gotoStatement_yields
    · exact pragmaLine_yields
    · exact directiveLine_yields
    · refine (peek_ensures 1).next fun found => ?_
      split
      · exact labeledStatement_yields sound
      · exact expressionStatement_yields sound
    · exact expressionStatement_yields sound

end OpenCLTree

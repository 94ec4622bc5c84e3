import OpenCLTree.Grammar.Expression
import OpenCLTree.Proofs.Yields.Declarator

namespace OpenCLTree

open Rule

variable {branch : Node → Prop}

theorem stringLiteral_yields : stringLiteral.Yields (Node.CataloguedWith branch) := by
  refine Ensures.bind (?strings : Yields _ fun nodes => ∀ node ∈ nodes, node.CataloguedWith branch)
    fun strings catalogued => ?_
  case strings =>
    refine ensures_many ((accept_ensures _).next fun found => ?_)
    cases found with
    | none => exact ensures_pure nofun
    | some token => exact ensures_pure (by simp)
  split
  · exact failExpecting_yields _
  · exact ensures_pure (catalogued _ List.mem_cons_self)
  · exact ensures_pure ((Node.cataloguedWith_make (by decide)).mpr (Child.fill_nodes.mpr catalogued))

theorem memberSuffix_yields {record : Node} (catalogued : record.CataloguedWith branch) :
    (memberSuffix record).Yields (Node.CataloguedWith branch) := by
  refine current_ensures.next fun found => ?_
  cases found with
  | none => exact failExpecting_yields _
  | some token =>
    dsimp only
    split
    · refine advance_ensures.next fun _ => (expect_yields _).next fun name => ?_
      exact ensures_pure (by simp +decide [catalogued])
    · exact failExpecting_yields _

theorem ParenthesizedType.fill_children {parts : ParenthesizedType}
    (catalogued : parts.type.CataloguedWith branch) :
    Child.FillWith branch [.type] parts.children := by
  simp [ParenthesizedType.children, catalogued]

theorem prefixed_catalogued {kind : NodeKind} {operand : Node} (operator : Token)
    (fields : kind.fields = [.operator, .argument]) (catalogued : operand.CataloguedWith branch) :
    (prefixed kind operator operand).CataloguedWith branch := by
  have other : kind ≠ .ifStatement := NodeKind.ne_ifStatement_of_fields (by simp [fields])
  simp [prefixed, other, fields, catalogued]

theorem infixed_catalogued {left right : Node} (level : Level) (operator : Token)
    (catalogued : left.CataloguedWith branch ∧ right.CataloguedWith branch) :
    (infixed level left operator right).CataloguedWith branch := by
  cases level <;> simp +decide [infixed, catalogued]

variable {sub : Grammar} (sound : sub.Sound branch)

include sound

theorem parenthesizedExpression_yields :
    (parenthesizedExpression sub).Yields (Node.CataloguedWith branch) := by
  refine (expect_yields _).next fun opener => ?_
  refine (Yields.nested (sound.expression _)).bind fun inner catalogued => ?_
  exact (expect_yields _).next fun closer => ensures_pure (by simp [catalogued])

theorem primaryExpression_yields : (primaryExpression sub).Yields (Node.CataloguedWith branch) := by
  refine current_ensures.next fun found => ?_
  cases found with
  | none => exact failExpecting_yields _
  | some token =>
    have leaf {kind : NodeKind} (other : kind ≠ .ifStatement) :
        (advance >>= fun _ => pure (Node.ofToken kind token)).Yields (Node.CataloguedWith branch) :=
      advance_ensures.next fun _ => ensures_pure (Node.cataloguedWith_ofToken token other)
    dsimp only
    split
    · exact leaf (by decide)
    · exact leaf (by decide)
    · exact leaf (by decide)
    · exact stringLiteral_yields
    · exact parenthesizedExpression_yields sound
    · exact failExpecting_yields _

theorem argumentList_yields : (argumentList sub).Yields (Node.CataloguedWith branch) := by
  refine (expect_yields _).next fun opener => ?_
  refine (commaSeparated_yields _ (sound.expression _)).bind fun arguments fill => ?_
  exact (expect_yields _).next fun closer => ensures_pure (by simp [fill.mono])

section Suffixes

variable {inner : Node} (catalogued : inner.CataloguedWith branch)

include catalogued

theorem callSuffix_yields : (callSuffix sub inner).Yields (Node.CataloguedWith branch) := by
  refine (argumentList_yields sound).bind fun arguments listed => ?_
  refine scopes_ensures.next fun scopes => ?_
  split
  · exact ensures_pure (by simp +decide [listed])
  · exact ensures_pure (by simp +decide [catalogued, listed])

theorem subscriptSuffix_yields : (subscriptSuffix sub inner).Yields (Node.CataloguedWith branch) := by
  refine (expect_yields _).next fun opener => (sound.expression _).bind fun index listed => ?_
  refine (expect_yields _).next fun closer => ?_
  exact ensures_pure (by simp +decide [catalogued, listed])

theorem suffix?_yields :
    (suffix? sub inner).Yields fun found => ∀ outer ∈ found, outer.CataloguedWith branch := by
  have suffix {rule : Rule Node} (yields : rule.Yields (Node.CataloguedWith branch)) :
      (rule >>= fun node => pure (some node)).Yields
        fun found => ∀ outer ∈ found, outer.CataloguedWith branch :=
    yields.bind fun node known => ensures_pure (by simpa using known)
  refine (current_ensures.inMode _).next fun found => ?_
  cases found with
  | none => exact ensures_pure nofun
  | some token =>
    dsimp only
    split
    · exact suffix (callSuffix_yields sound catalogued)
    · exact suffix (subscriptSuffix_yields sound catalogued)
    · split
      · refine (advance_ensures.inMode _).next fun _ => ensures_pure ?_
        simp +decide [catalogued]
      · exact suffix (memberSuffix_yields catalogued)
    · exact suffix (memberSuffix_yields catalogued)
    · exact suffix (memberSuffix_yields catalogued)
    · exact advance_ensures.next fun _ => ensures_pure (by simp +decide [catalogued])
    · exact advance_ensures.next fun _ => ensures_pure (by simp +decide [catalogued])
    · exact ensures_pure nofun

theorem suffixes_yields : (suffixes sub inner).Yields (Node.CataloguedWith branch) := by
  refine ensures_loop (Node.CataloguedWith branch) ?_ catalogued
  intro inner known
  refine (suffix?_yields sound known).bind fun found outer => ?_
  cases found with
  | none => exact ensures_pure known
  | some larger => exact ensures_pure (outer larger rfl)

end Suffixes

theorem postfixExpression_yields : (postfixExpression sub).Yields (Node.CataloguedWith branch) :=
  (primaryExpression_yields sound).bind fun _ catalogued => suffixes_yields sound catalogued

/-- A parenthesis that goes on after the type is the only error here that is none of the source. -/
theorem parenthesizedType_ensures :
    (parenthesizedType sub).Ensures (fun parts => parts.type.CataloguedWith branch) fun error =>
      error.IsOrdinary ∨ error.kind = .ambiguousCast := by
  have ordinary {α : Type} {rule : Rule α} {holds : α → Prop} (yields : rule.Yields holds) :
      rule.Ensures holds fun error => error.IsOrdinary ∨ error.kind = .ambiguousCast :=
    yields.mono (fun _ known => known) fun _ => .inl
  refine (ordinary (expect_yields _)).next fun opener => ?_
  refine (ordinary (typeDescriptor_yields sound)).bind fun type catalogued => ?_
  refine (accept_ensures _).next fun found => ?_
  cases found with
  | none => exact ensures_fail (.inr rfl)
  | some closer => exact ensures_pure catalogued

/-- The attempt does not fail: it goes back instead, whatever the error is. -/
theorem tryParenthesizedType_ensures {fails : ParseError → Prop} :
    (tryParenthesizedType sub).Ensures
      (fun found => ∀ parts ∈ found, parts.type.CataloguedWith branch) fails := by
  refine snapshot_ensures.next fun start => ?_
  refine (parenthesizedType_ensures sound).attempt.bind fun result known => ?_
  cases result with
  | ok parts => exact ensures_pure (by simpa using known)
  | error error => exact (restore_ensures start).next fun _ => ensures_pure (by simp)

theorem typeInParens_ensures {fails : ParseError → Prop} :
    (typeInParens sub).Ensures
      (fun found => ∀ parts ∈ found, parts.type.CataloguedWith branch) fails := by
  refine (startsTypeNameAt_ensures 1).next fun starts => ?_
  split
  · exact tryParenthesizedType_ensures sound
  · exact ensures_pure (by simp)

theorem leadingType_ensures {fails : ParseError → Prop} :
    (leadingType sub).Ensures
      (fun found => ∀ parts ∈ found, parts.type.CataloguedWith branch) fails := by
  refine (check_ensures _).next fun opens => ?_
  split
  · exact typeInParens_ensures sound
  · exact ensures_pure (by simp)

theorem designators_yields : (designators sub).Yields (Child.FillWith branch [.designator]) := by
  refine many_yields (currentKind_ensures.next fun kind => ?_)
  split
  · refine (expect_yields _).next fun dot => (expect_yields _).next fun name => ?_
    exact ensures_pure (by simp)
  · refine (expect_yields _).next fun opener => (sound.expression _).bind fun index catalogued => ?_
    exact (expect_yields _).next fun closer => ensures_pure (by simp [catalogued])
  · exact ensures_pure nofun

theorem initializerPair_yields : (initializerPair sub).Yields (Node.CataloguedWith branch) := by
  refine (designators_yields sound).bind fun designators fill => ?_
  refine (expect_yields _).next fun assign => sound.initializer.bind fun value catalogued => ?_
  exact ensures_pure (by simp +decide [fill.mono, catalogued])

theorem initializerList_yields : (initializerList sub).Yields (Node.CataloguedWith branch) := by
  refine (expect_yields _).next fun opener => ?_
  refine Ensures.bind (?entries : Yields _ (Child.FillWith branch [])) fun entries fill => ?_
  case entries =>
    refine commaSeparated_yields _ (currentKind_ensures.next fun kind => ?_)
    split
    · exact initializerPair_yields sound
    · exact initializerPair_yields sound
    · exact sound.initializer
  exact (expect_yields _).next fun closer => ensures_pure (by simp [fill.mono])

theorem afterParenthesizedType_yields {parts : ParenthesizedType}
    (catalogued : parts.type.CataloguedWith branch) :
    (afterParenthesizedType sub parts).Yields (Node.CataloguedWith branch) := by
  have fill := ParenthesizedType.fill_children catalogued
  have cast : (afterParenthesizedType.cast sub parts).Yields (Node.CataloguedWith branch) := by
    refine sound.castExpression.bind fun value known => ensures_pure ?_
    simp +decide [fill.mono, known]
  refine currentKind_ensures.next fun kind => ?_
  split
  · refine (initializerList_yields sound).bind fun list known => suffixes_yields sound ?_
    simp +decide [fill.mono, known]
  · split
    · refine (argumentList_yields sound).bind fun arguments known => suffixes_yields sound ?_
      simp +decide [fill.mono, known]
    · exact cast
  · exact cast

theorem sizeofExpression_yields : (sizeofExpression sub).Yields (Node.CataloguedWith branch) := by
  refine (expect_yields _).next fun word => (leadingType_ensures sound).bind fun found known => ?_
  cases found with
  | some parts =>
    have fill : Child.FillWith branch [.type] parts.children :=
      ParenthesizedType.fill_children (known parts rfl)
    exact ensures_pure (by simp +decide [fill.mono])
  | none =>
    refine (Yields.nested sound.unaryExpression).bind fun value catalogued => ?_
    exact ensures_pure (by simp +decide [catalogued])

theorem alignofExpression_yields : (alignofExpression sub).Yields (Node.CataloguedWith branch) := by
  refine (expect_yields _).next fun word => (expect_yields _).next fun opener => ?_
  refine (typeDescriptor_yields sound).bind fun type catalogued => ?_
  refine (expect_yields _).next fun closer => ?_
  exact ensures_pure (by simp +decide [catalogued])

theorem vecStepExpression_yields : (vecStepExpression sub).Yields (Node.CataloguedWith branch) := by
  refine (expect_yields _).next fun word => (typeInParens_ensures sound).bind fun found known => ?_
  cases found with
  | some parts =>
    have fill : Child.FillWith branch [.type] parts.children :=
      ParenthesizedType.fill_children (known parts rfl)
    exact ensures_pure (by simp +decide [fill.mono])
  | none =>
    refine (expect_yields _).next fun opener => (sound.expression _).bind fun value catalogued => ?_
    refine (expect_yields _).next fun closer => ?_
    exact ensures_pure (by simp +decide [catalogued])

theorem unaryExpression_yields : (unaryExpression sub).Yields (Node.CataloguedWith branch) := by
  refine current_ensures.next fun found => ?_
  cases found with
  | none => exact failExpecting_yields _
  | some token =>
    have operand {rule : Rule Node} {kind : NodeKind}
        (fields : kind.fields = [.operator, .argument])
        (yields : rule.Yields (Node.CataloguedWith branch)) :
        (advance >>= fun _ => rule >>= fun operand => pure (prefixed kind token operand)).Yields
          (Node.CataloguedWith branch) :=
      advance_ensures.next fun _ => yields.bind fun _ catalogued =>
        ensures_pure (prefixed_catalogued token fields catalogued)
    dsimp only
    split
    · exact postfixExpression_yields sound
    · exact sizeofExpression_yields sound
    · exact alignofExpression_yields sound
    · exact vecStepExpression_yields sound
    · exact operand rfl sound.unaryExpression.nested
    · exact operand rfl sound.unaryExpression.nested
    · exact operand rfl sound.castExpression
    · exact operand rfl sound.castExpression
    · exact operand rfl sound.castExpression

theorem castExpression_yields : (castExpression sub).Yields (Node.CataloguedWith branch) := by
  refine Yields.nested ((leadingType_ensures sound).bind fun found known => ?_)
  cases found with
  | some parts => exact afterParenthesizedType_yields sound (known parts rfl)
  | none => exact unaryExpression_yields sound

theorem conditionalRest_yields {condition : Node} (catalogued : condition.CataloguedWith branch)
    (question : Token) :
    (conditionalRest sub condition question).Yields (Node.CataloguedWith branch) := by
  refine (sound.expression _).bind fun consequence first => (expect_yields _).next fun colon => ?_
  refine (sound.expression _).bind fun alternative second => ?_
  exact ensures_pure (by simp +decide [catalogued, first, second])

theorem extend?_yields (least : Level) {left : Node} (catalogued : left.CataloguedWith branch) :
    (extend? sub least left).Yields fun found => ∀ larger ∈ found, larger.CataloguedWith branch := by
  refine current_ensures.next fun found => ?_
  cases found with
  | none => exact ensures_pure nofun
  | some token =>
    dsimp only
    split
    · exact ensures_pure nofun
    · rename_i operator _
      split
      · exact ensures_pure nofun
      · refine advance_ensures.next fun _ => ?_
        split
        · refine (conditionalRest_yields sound catalogued token).bind fun node known => ?_
          exact ensures_pure (by simpa using known)
        · refine (sound.expression _).bind fun right known => ensures_pure ?_
          simpa using infixed_catalogued operator.level token ⟨catalogued, known⟩

theorem expression_yields (least : Level) :
    (expression sub least).Yields (Node.CataloguedWith branch) := by
  refine (castExpression_yields sound).bind fun first catalogued => ?_
  refine ensures_loop (Node.CataloguedWith branch) ?_ catalogued
  intro left known
  refine (extend?_yields sound least known).bind fun found larger => ?_
  cases found with
  | none => exact ensures_pure known
  | some outer => exact ensures_pure (larger outer rfl)

theorem initializer_yields : (initializer sub).Yields (Node.CataloguedWith branch) := by
  refine (check_ensures _).next fun opens => ?_
  split
  · exact Yields.nested (initializerList_yields sound)
  · exact expression_yields sound _

end OpenCLTree

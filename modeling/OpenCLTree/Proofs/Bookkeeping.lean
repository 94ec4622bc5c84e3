import OpenCLTree.Proofs.Grammar.Attempts
import OpenCLTree.Proofs.Grammar.Continuations
import OpenCLTree.Proofs.Grammar.Reachable
import OpenCLTree.Proofs.Lexical.Spaced

/-!
What the grammar keeps besides the tokens is balanced, whatever is read and wherever it fails: behind
each rule the nesting, the scopes around the innermost one and the reading of dots are as they were.
-/

namespace OpenCLTree

open Rule

/-- The rules that take a token before they call others in a circle. -/
inductive Begins (sub : Grammar) : {α : Type} → Rule α → Prop
  | item : Begins sub (recovering .topLevel (topLevelItem sub))
  | topLevelItem : Begins sub (topLevelItem sub)
  | pragmaLine : Begins sub pragmaLine
  | directiveLine : Begins sub directiveLine
  | externalDeclaration : Begins sub (externalDeclaration sub)
  | definitionAfter (kind : NodeKind) (specifiers : Specifiers) (declared : Declared) :
      Begins sub (definitionAfter sub kind specifiers declared)
  | statement : Begins sub (statement sub)
  | compoundStatement : Begins sub (compoundStatement sub)
  | ifStatement : Begins sub (ifStatement sub)
  | whileStatement : Begins sub (whileStatement sub)
  | doStatement : Begins sub (doStatement sub)
  | forStatement : Begins sub (forStatement sub)
  | switchStatement : Begins sub (switchStatement sub)
  | caseLabel : Begins sub (caseLabel sub)
  | caseStatement : Begins sub (caseStatement sub)
  | returnStatement : Begins sub (returnStatement sub)
  | jumpStatement (keyword : Keyword) (kind : NodeKind) : Begins sub (jumpStatement keyword kind)
  | gotoStatement : Begins sub gotoStatement
  | labeledStatement : Begins sub (labeledStatement sub)
  | expressionStatement : Begins sub (expressionStatement sub)
  | localDeclaration : Begins sub (localDeclaration sub)
  | declarationSpecifiers : Begins sub (declarationSpecifiers sub)
  | qualifiers (specifiers : Specifiers) : Begins sub (qualifiers sub specifiers)
  | attributeSpecifier : Begins sub (attributeSpecifier sub)
  | attributes : Begins sub (attributes sub)
  | initDeclarator (sort : NameSort) (declared : Declared) : Begins sub (initDeclarator sub sort declared)
  | declarationRest (sort : NameSort) (first : Declared) : Begins sub (declarationRest sub sort first)
  | typeSpecifier : Begins sub (typeSpecifier sub)
  | typeToken (kind : NodeKind) (token : Token) : Begins sub (typeToken kind token)
  | sizedTypeSpecifier : Begins sub sizedTypeSpecifier
  | pipeType : Begins sub (pipeType sub)
  | typeTag : Begins sub typeTag
  | recordSpecifier (keyword : Keyword) (kind : NodeKind) : Begins sub (recordSpecifier sub keyword kind)
  | fieldDeclarationList : Begins sub (fieldDeclarationList sub)
  | bitfieldWidth : Begins sub (bitfieldWidth sub)
  | enumSpecifier : Begins sub (enumSpecifier sub)
  | enumeratorList : Begins sub (enumeratorList sub)
  | enumerator : Begins sub (enumerator sub)
  | declarator (mode : DeclaratorMode) : Begins sub (declarator sub mode)
  | directDeclarator (mode : DeclaratorMode) : Begins sub (directDeclarator sub mode)
  | declaratorCore (mode : DeclaratorMode) : Begins sub (declaratorCore sub mode)
  | parenthesizedDeclarator (mode : DeclaratorMode) : Begins sub (parenthesizedDeclarator sub mode)
  | pointerQualifiers : Begins sub pointerQualifiers
  | arraySuffix (inner : Option Node) : Begins sub (arraySuffix sub inner)
  | functionSuffix (inner : Option Node) : Begins sub (functionSuffix sub inner)
  | parameterList : Begins sub (parameterList sub)
  | expression (least : Level) : Begins sub (expression sub least)
  | extend? (least : Level) (left : Node) : Begins sub (extend? sub least left)
  | castExpression : Begins sub (castExpression sub)
  | tryCast : Begins sub (tryCast sub)
  | tryParenthesizedType : Begins sub (tryParenthesizedType sub)
  | parenthesizedType : Begins sub (parenthesizedType sub)
  | unaryExpression : Begins sub (unaryExpression sub)
  | typeInParens : Begins sub (typeInParens sub)
  | leadingType : Begins sub (leadingType sub)
  | sizeofExpression : Begins sub (sizeofExpression sub)
  | alignofExpression : Begins sub (alignofExpression sub)
  | vecStepExpression : Begins sub (vecStepExpression sub)
  | postfixExpression : Begins sub (postfixExpression sub)
  | suffixes (inner : Node) : Begins sub (suffixes sub inner)
  | suffix? (inner : Node) : Begins sub (suffix? sub inner)
  | callSuffix (callee : Node) : Begins sub (callSuffix sub callee)
  | subscriptSuffix (array : Node) : Begins sub (subscriptSuffix sub array)
  | memberSuffix (record : Node) : Begins sub (memberSuffix record)
  | argumentList : Begins sub (argumentList sub)
  | primaryExpression : Begins sub (primaryExpression sub)
  | stringLiteral : Begins sub stringLiteral
  | parenthesizedExpression : Begins sub (parenthesizedExpression sub)
  | initializer : Begins sub (initializer sub)
  | initializerList : Begins sub (initializerList sub)

/-- The rules that are called behind a token and may call others at once. -/
inductive GoesOn (sub : Grammar) : {α : Type} → Rule α → Prop
  | kernelAfter (specifiers : Specifiers) : GoesOn sub (kernelAfter sub specifiers)
  | declarationAfter (specifiers : Specifiers) {definition : Declared → Option (Rule Node)} :
      (∀ declared body, definition declared = some body → Begins sub body) →
      GoesOn sub (declarationAfter sub specifiers definition)
  | declared : GoesOn sub (declared sub)
  | blockItem : GoesOn sub (recovering .statement (blockItem sub))
  | blockItems (stops : List TokenKind) : GoesOn sub (blockItems sub stops)
  | forInitializer : GoesOn sub (forInitializer sub)
  | optionalExpression (field : Field) (closer : TokenKind) :
      GoesOn sub (optionalExpression sub field closer)
  | typeDescriptor : GoesOn sub (typeDescriptor sub)
  | attributeEntry : GoesOn sub (attributeEntry sub)
  | fieldDeclaration : GoesOn sub (fieldDeclaration sub)
  | fieldDeclarators : GoesOn sub (fieldDeclarators sub)
  | requiredDeclarator (mode : DeclaratorMode) : GoesOn sub (requiredDeclarator sub mode)
  | parameters : GoesOn sub (parameters sub)
  | parameterDeclaration : GoesOn sub (parameterDeclaration sub)
  | afterParenthesizedType (parts : ParenthesizedType) : GoesOn sub (afterParenthesizedType sub parts)
  | conditionalRest (condition : Node) (question : Token) :
      GoesOn sub (conditionalRest sub condition question)
  | designators : GoesOn sub (designators sub)
  | initializerPair : GoesOn sub (initializerPair sub)

section

variable {α : Type} {sub : Grammar} {room : Nat} {state : GrammarState} {rule : Rule α}

theorem Rule.parenthesizedType_balances (serves : sub.Serves room) (poised : state.Poised (room + 1)) :
    (parenthesizedType sub).Balances state := by
  refine (parenthesizedType_meets serves poised.fits).mono (fun _ _ reads => reads.balanced poised.scope) ?_
  rintro _ _ ⟨_, reads⟩
  exact reads.balanced poised.scope

theorem Rule.tryCast_balances (serves : sub.Serves room) (poised : state.Poised (room + 1)) :
    (tryCast sub).Balances state := by
  refine (tryParenthesizedType_takes serves poised).step fun found s1 balanced fewer => ?_
  cases found with
  | none => exact pure_balances _ s1
  | some parts =>
    have poised := poised.behind_pred balanced (fewer rfl)
    exact (afterParenthesizedType_balances serves poised parts).bind fun _ s2 _ => pure_balances _ s2

theorem Begins.balances (begins : Begins sub rule) (serves : sub.Serves room)
    (poised : state.Poised (room + 1)) : rule.Balances state := by
  have fits := poised.fits
  cases begins with
  | item => exact recovering_balances poised _ (topLevelItem_balances serves poised)
  | topLevelItem => exact topLevelItem_balances serves poised
  | pragmaLine => exact (pragmaLine_builds fits).balances poised
  | directiveLine => exact (directiveLine_builds fits).balances poised
  | externalDeclaration => exact externalDeclaration_balances serves poised
  | definitionAfter kind specifiers declared =>
    exact definitionAfter_balances serves poised kind specifiers declared
  | statement => exact (statement_builds serves fits).balances poised
  | compoundStatement => exact (compoundStatement_builds serves fits).balances poised
  | ifStatement => exact (ifStatement_builds serves fits).balances poised
  | whileStatement => exact (whileStatement_builds serves fits).balances poised
  | doStatement => exact (doStatement_builds serves fits).balances poised
  | forStatement => exact (forStatement_builds serves fits).balances poised
  | switchStatement => exact (switchStatement_builds serves fits).balances poised
  | caseLabel => exact (caseLabel_builds serves fits).builds.balances poised
  | caseStatement => exact (caseStatement_builds serves fits).balances poised
  | returnStatement => exact (returnStatement_builds serves fits).balances poised
  | jumpStatement keyword kind => exact jumpStatement_balances poised keyword kind
  | gotoStatement => exact (gotoStatement_builds state).balances poised
  | labeledStatement => exact (labeledStatement_builds serves fits).balances poised
  | expressionStatement => exact (expressionStatement_builds serves fits).balances poised
  | localDeclaration => exact (localDeclaration_builds serves fits).balances poised
  | declarationSpecifiers => exact (declarationSpecifiers_takes serves poised).balances
  | qualifiers specifiers => exact qualifiers_balances serves poised specifiers
  | attributeSpecifier => exact (attributeSpecifier_builds serves fits).balances poised
  | attributes => exact (attributes_builds serves fits).balances poised
  | initDeclarator sort declared => exact initDeclarator_balances serves poised sort declared
  | declarationRest sort first => exact declarationRest_balances serves poised sort first
  | typeSpecifier => exact (typeSpecifier_builds serves fits).balances poised
  | typeToken kind token => exact typeToken_balances poised kind token
  | sizedTypeSpecifier => exact sizedTypeSpecifier_balances poised
  | pipeType => exact (pipeType_builds serves fits).balances poised
  | typeTag => exact (typeTag_builds state).balances poised
  | recordSpecifier keyword kind => exact recordSpecifier_balances serves poised keyword kind
  | fieldDeclarationList => exact (fieldDeclarationList_builds serves fits).balances poised
  | bitfieldWidth => exact (bitfieldWidth_builds serves fits).balances poised
  | enumSpecifier => exact (enumSpecifier_builds serves fits).balances poised
  | enumeratorList => exact (enumeratorList_builds serves fits).balances poised
  | enumerator => exact (enumerator_builds serves fits).balances poised
  | declarator mode => exact (declarator_builds serves fits).balances poised
  | directDeclarator mode => exact (directDeclarator_builds serves fits).balances poised
  | declaratorCore mode => exact (declaratorCore_builds serves fits).balances poised
  | parenthesizedDeclarator mode => exact (parenthesizedDeclarator_builds serves fits).balances poised
  | pointerQualifiers => exact (pointerQualifiers_builds state).builds.balances poised
  | arraySuffix inner => exact arraySuffix_balances serves poised inner
  | functionSuffix inner => exact functionSuffix_balances serves poised inner
  | parameterList => exact (parameterList_builds serves fits).balances poised
  | expression least => exact (expression_builds serves fits).builds.balances poised
  | extend? least left => exact (extend?_takes serves poised least left).balances
  | castExpression => exact (castExpression_builds serves fits).builds.balances poised
  | tryCast => exact tryCast_balances serves poised
  | tryParenthesizedType => exact (tryParenthesizedType_takes serves poised).balances
  | parenthesizedType => exact parenthesizedType_balances serves poised
  | unaryExpression => exact (unaryExpression_builds serves fits).builds.balances poised
  | typeInParens => exact (typeInParens_builds serves fits).balances poised
  | leadingType => exact (leadingType_builds serves fits).balances poised
  | sizeofExpression => exact (sizeofExpression_builds serves fits).builds.balances poised
  | alignofExpression => exact (alignofExpression_builds serves fits).builds.balances poised
  | vecStepExpression => exact (vecStepExpression_builds serves fits).builds.balances poised
  | postfixExpression => exact (postfixExpression_builds serves fits).builds.balances poised
  | suffixes inner => exact suffixes_balances serves poised inner
  | suffix? inner => exact (suffix?_takes serves poised inner).balances
  | callSuffix callee => exact (callSuffix_takes serves poised callee).balances
  | subscriptSuffix array => exact (subscriptSuffix_takes serves poised array).balances
  | memberSuffix record => exact (memberSuffix_takes poised record).balances
  | argumentList => exact (argumentList_builds serves fits).balances poised
  | primaryExpression => exact (primaryExpression_builds serves fits).balances poised
  | stringLiteral => exact (stringLiteral_builds fits).balances poised
  | parenthesizedExpression => exact (parenthesizedExpression_builds serves fits).balances poised
  | initializer => exact (initializer_builds serves fits).builds.balances poised
  | initializerList => exact (initializerList_builds serves fits).builds.balances poised

theorem GoesOn.balances (goesOn : GoesOn sub rule) (serves : sub.Serves room)
    (poised : state.Poised room) : rule.Balances state := by
  have fits := poised.fits
  cases goesOn with
  | kernelAfter specifiers => exact kernelAfter_balances serves poised specifiers
  | declarationAfter specifiers bodied =>
    exact declarationAfter_balances serves poised specifiers fun declared body found s1 poised =>
      (bodied declared body found).balances serves poised.weaken
  | declared => exact declared_balances serves poised
  | blockItem => exact recovering_balances poised _ ((blockItem_builds serves fits).balances poised)
  | blockItems stops => exact (blockItems_builds serves fits).balances poised
  | forInitializer => exact (forInitializer_builds serves fits).balances poised
  | optionalExpression field closer => exact (optionalExpression_builds serves fits).balances poised
  | typeDescriptor => exact (typeDescriptor_builds serves fits).balances poised
  | attributeEntry => exact (attributeEntry_builds serves fits).balances poised
  | fieldDeclaration => exact (fieldDeclaration_builds serves fits).balances poised
  | fieldDeclarators => exact (fieldDeclarators_builds serves fits).balances poised
  | requiredDeclarator mode => exact (requiredDeclarator_builds serves fits).balances poised
  | parameters => exact (parameters_builds serves fits).balances poised
  | parameterDeclaration => exact (parameterDeclaration_builds serves fits).balances poised
  | afterParenthesizedType parts => exact afterParenthesizedType_balances serves poised parts
  | conditionalRest condition question => exact conditionalRest_balances serves poised condition question
  | designators => exact (designators_builds serves fits).balances poised
  | initializerPair => exact (initializerPair_builds serves fits).balances poised

end

namespace Rule

variable {α β : Type} {sub : Grammar} {room : Nat} {state : GrammarState}

theorem Settles.bind {first : Rule β} {next : β → Rule α} (settles : first.Settles state)
    (later : ∀ value middle, state.Balanced middle → (next value).Settles middle) :
    (first >>= next).Settles state := by
  unfold Settles
  rw [meets_bind]
  refine Meets.mono settles (fun value middle front => ?_) fun _ _ settled => settled
  refine (later value middle front.toBalanced).mono (fun _ _ back => ?_) fun _ _ back => ?_
  · exact front.trans back
  · exact front.trans back

theorem pure_settles (value : α) (state : GrammarState) : (pure value : Rule α).Settles state :=
  .refl state

/-- Tokens are taken without a look at the scopes. -/
theorem expect_scopes (kind : TokenKind) (state : GrammarState) :
    (expect kind).Meets state (fun _ after => after.scopes = state.scopes)
      fun _ after => after.scopes = state.scopes := by
  have passes : advance.Meets state (fun _ after => after.scopes = state.scopes)
      fun _ after => after.scopes = state.scopes := by
    unfold advance
    rw [meets_modify]
    split <;> rfl
  have fails : (failExpecting (.token kind) : Rule Token).Meets state
      (fun _ after => after.scopes = state.scopes) fun _ after => after.scopes = state.scopes := by
    unfold failExpecting
    rw [meets_bind, meets_current]
    split <;> rfl
  unfold expect accept
  rw [meets_bind, meets_bind, meets_current]
  split
  · split
    · rw [meets_bind]
      exact passes
    · exact fails
  · exact fails

theorem expect_settles (poised : state.Poised room) (kind : TokenKind) : (expect kind).Settles state := by
  refine ((expect_takes poised kind).balances.both (expect_scopes kind state)).mono ?_ ?_
  · exact fun _ _ outcome => ⟨outcome.1, congrArg Scopes.layers outcome.2⟩
  · exact fun _ _ outcome => ⟨outcome.1, congrArg Scopes.layers outcome.2⟩

theorem expect_bind_settles {kind : TokenKind} {next : Token → Rule α} (poised : state.Poised (room + 1))
    (later : ∀ token middle, middle.Poised room → (next token).Settles middle) :
    (expect kind >>= next).Settles state := by
  unfold Settles
  rw [meets_bind]
  refine ((expect_takes poised kind).both (expect_settles poised kind)).mono ?_ fun _ _ outcome => outcome.2
  rintro token middle ⟨⟨_, fewer⟩, front⟩
  have poised := poised.behind_pred front.toBalanced (fewer trivial)
  refine (later token middle poised).mono (fun _ _ back => ?_) fun _ _ back => ?_
  · exact front.trans back
  · exact front.trans back

theorem compoundStatement_settles (serves : sub.Serves room) (poised : state.Poised (room + 1)) :
    (compoundStatement sub).Settles state := by
  refine expect_bind_settles poised fun opener s1 poised => ?_
  have items : (blockItems sub []).Balances (s1.mapScopes Scopes.enter) :=
    (blockItems_builds serves poised.enter.fits).balances poised.enter
  refine Settles.bind (inScope_settles poised items) fun items s2 balanced => ?_
  refine (expect_settles (poised.behind balanced) _).bind fun closer s3 _ => ?_
  exact pure_settles _ s3

theorem forStatement_settles (serves : sub.Serves room) (poised : state.Poised (room + 1)) :
    (forStatement sub).Settles state := by
  refine expect_bind_settles poised fun word s1 poised => ?_
  refine (expect_settles poised _).bind fun opener s2 balanced => ?_
  have poised := poised.behind balanced
  refine Settles.bind (inScope_settles poised ?_) fun rest s3 _ => pure_settles _ s3
  have poised := poised.enter
  refine step poised ((forInitializer_builds serves poised.fits).balances poised) fun _ _ poised => ?_
  refine step poised ((optionalExpression_builds serves poised.fits).balances poised) fun _ _ poised => ?_
  refine step poised ((optionalExpression_builds serves poised.fits).balances poised) fun _ _ poised => ?_
  refine step poised ((serves.statement poised.fits).balances poised) fun _ last _ => ?_
  exact pure_balances _ last

end Rule

/-- The states between the top-level items of a token stream, with the items before them. -/
inductive BetweenItems (tokens : List Token) : List Node → GrammarState → Prop
  | start : BetweenItems tokens [] (.ofTokens tokens)
  | item {items : List Node} {state after : GrammarState} {item : Node} :
      BetweenItems tokens items state →
      recovering .topLevel (topLevelItem (.ofDepth tokens.length)) state = .done item after →
      BetweenItems tokens (items ++ [item]) after

namespace BetweenItems

variable {tokens : List Token} {items : List Node} {state : GrammarState}

theorem poised_start (tokens : List Token) : (GrammarState.ofTokens tokens).Poised (tokens.length + 1) :=
  ⟨GrammarState.ofTokens_fits tokens, List.cons_ne_nil _ _⟩

/-- All items together leave the bookkeeping balanced. -/
theorem balanced (between : BetweenItems tokens items state) :
    (GrammarState.ofTokens tokens).Balanced state := by
  induction between with
  | start => exact .refl _
  | item _ run ih =>
    have poised := (poised_start tokens).behind ih
    have balances : Rule.Balances _ _ := (Begins.item).balances (Grammar.ofDepth_serves _) poised
    exact ih.trans (balances.of_done run)

/-- The items of a source are read one after another, each from such a state. -/
theorem sourceItems (tokens : List Token) :
    (sourceItems (.ofDepth tokens.length)).Meets (.ofTokens tokens)
      (fun items last => BetweenItems tokens items last) fun _ _ => False := by
  unfold OpenCLTree.sourceItems many
  -- What the loop has collected are the items before the state.
  refine Meets.loop (fun items state => BetweenItems tokens items state) ?_ .start
  intro items state between
  have poised := (poised_start tokens).behind between.balanced
  rw [meets_bind, meets_bind, meets_atEnd]
  split
  · exact between
  · rename_i goesOn
    rw [meets_bind]
    have reads := recoveringItem_reads (Grammar.ofDepth_serves _) poised.fits (by simpa using goesOn)
    refine reads.withRun.mono (fun item after ⟨run, outcome⟩ => ?_) fun _ _ never => never
    exact ⟨between.item run, outcome.reads.remaining_lt (List.cons_ne_nil _ _)⟩

end BetweenItems

namespace GrammarState

/-- Between items nothing is open but the scope of the file. -/
theorem Balanced.ofTokens {tokens : List Token} {state : GrammarState}
    (balanced : (ofTokens tokens).Balanced state) :
    state.nesting = 0 ∧ state.scopes.depth = 1 ∧ state.cursor.mode = .normal :=
  ⟨balanced.nesting, balanced.depth, balanced.mode⟩

theorem Reachable.poised {tokens : List Token} {state : GrammarState} {room : Nat}
    (reachable : Reachable tokens state) (enough : state.remaining ≤ room) : state.Poised (room + 1) :=
  ⟨reachable.fits enough, reachable.layers_ne_nil⟩

end GrammarState

/-- Whatever is read of a source, and wherever that fails, the bookkeeping is balanced behind it. What
stands in braces and what a for loop is made of changes no scope at all. Between items nothing is open
but the scope of the file. -/
theorem bookkeeping_balanced (source : String) :
    (∀ state room, GrammarState.Reachable (tokenize source).1 state → state.remaining ≤ room →
      (∀ (α : Type) (rule : Rule α), Begins (.ofDepth room) rule → rule.Balances state) ∧
      (compoundStatement (.ofDepth room)).Settles state ∧ (forStatement (.ofDepth room)).Settles state) ∧
    (∀ state room, GrammarState.Reachable (tokenize source).1 state → state.remaining < room →
      ∀ (α : Type) (rule : Rule α), GoesOn (.ofDepth room) rule → rule.Balances state) ∧
    (∃ items last, sourceItems (.ofDepth (tokenize source).1.length) (.ofTokens (tokenize source).1) =
      .done items last ∧ BetweenItems (tokenize source).1 items last) ∧
    ∀ items state, BetweenItems (tokenize source).1 items state →
      state.nesting = 0 ∧ state.scopes.depth = 1 ∧ state.cursor.mode = .normal := by
  refine ⟨fun state room reachable enough => ?_, fun state room reachable fewer α rule goesOn => ?_, ?_,
    fun items state between => between.balanced.ofTokens⟩
  · have serves := Grammar.ofDepth_serves room
    have poised := reachable.poised enough
    exact ⟨fun α rule begins => begins.balances serves poised, compoundStatement_settles serves poised,
      forStatement_settles serves poised⟩
  · have poised := reachable.poised (Nat.le_of_lt fewer)
    exact goesOn.balances (Grammar.ofDepth_serves room) ⟨⟨poised.fits.lawful, fewer⟩, poised.scope⟩
  · rcases (BetweenItems.sourceItems (tokenize source).1).ends with read | ⟨_, _, _, never⟩
    · exact read
    · exact never.elim

/-- The loop is read whole, and leaves no name behind. As a declaration it is rejected, which leaves
nothing behind either. -/
theorem bookkeeping_balanced_loop :
    let leaves := [.leaf (.keyword .forKw) "for", Punctuator.leftParen.leaf, .leaf (.keyword .int) "int",
      .leaf .identifier "i", Punctuator.semicolon.leaf, Punctuator.semicolon.leaf,
      Punctuator.rightParen.leaf, Punctuator.semicolon.leaf]
    let tokens := Token.placedFrom 0 leaves
    tokenize "for ( int i ; ; ) ;" = (tokens, []) ∧
      (GrammarState.ofTokens tokens).remaining ≤ 8 ∧
      (forStatement (.ofDepth 8)).Settles (.ofTokens tokens) ∧
      (externalDeclaration (.ofDepth 8)).FailsIn (.ofTokens tokens) ∧
      (externalDeclaration (.ofDepth 8)).Balances (.ofTokens tokens) ∧
      (GrammarState.ofTokens tokens).remaining < 9 ∧
      (typeDescriptor (.ofDepth 9)).FailsIn (.ofTokens tokens) ∧
      (typeDescriptor (.ofDepth 9)).Balances (.ofTokens tokens) ∧
      ∃ items last, sourceItems (.ofDepth 8) (.ofTokens tokens) = .done items last ∧
        last.nesting = 0 ∧ last.scopes.depth = 1 ∧ last.cursor.mode = .normal := by
  intro leaves tokens
  have read : tokenize "for ( int i ; ; ) ;" = (tokens, []) := by decide +kernel
  obtain ⟨begins, goesOn, ⟨items, last, run, between⟩, outside⟩ := bookkeeping_balanced "for ( int i ; ; ) ;"
  rw [read] at begins goesOn run between outside
  have few : (GrammarState.ofTokens tokens).remaining ≤ 8 := by decide +kernel
  obtain ⟨balances, _, settles⟩ := begins _ 8 .start few
  exact ⟨read, few, settles, by decide +kernel, balances _ _ .externalDeclaration, Nat.lt_succ_of_le few,
    by decide +kernel, goesOn _ 9 .start (Nat.lt_succ_of_le few) _ _ .typeDescriptor, items, last, run,
    outside items last between⟩

end OpenCLTree

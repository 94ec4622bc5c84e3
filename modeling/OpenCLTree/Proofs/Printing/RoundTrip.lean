import OpenCLTree.Proofs.Lexical.Spaced
import OpenCLTree.Proofs.Printing.Climbing
import OpenCLTree.Proofs.TokenDependence

namespace OpenCLTree

theorem Scopes.isType_declare_ordinary {scopes : Scopes} (untyped : ∀ name, scopes.isType name = false)
    (declared name : String) : (scopes.declare declared .ordinary).isType name = false := by
  have before := untyped name
  unfold declare
  split
  · exact before
  · rename_i inner rest layers
    simp only [isType, lookup, layers, List.findSome?_cons, Scope.assign] at before ⊢
    by_cases same : name = declared
    · simp [same]
    · simpa only [same, if_false] using before

theorem Scene.Allows.enter {scene : Scene} {levels : Nat} (allows : scene.Allows levels) :
    (scene.mapScopes Scopes.enter).Allows levels :=
  ⟨allows.untyped, allows.room⟩

theorem Scene.Allows.declare {scene : Scene} {levels : Nat} (allows : scene.Allows levels) (name : String) :
    (scene.mapScopes (·.declare name .ordinary)).Allows levels :=
  ⟨Scopes.isType_declare_ordinary allows.untyped name, allows.room⟩

/-- The scopes after a function `f` whose body holds no declarations. -/
def Scopes.afterFunction (scopes : Scopes) : Scopes :=
  (scopes.declare "f" .ordinary).enter.enter.leave.leave

/-- The tokens of a function `f` without parameters, whose body holds an expression. -/
def functionLeaves (expression : List Token) : List Token :=
  .leaf (.keyword .void) "void" :: .leaf .identifier "f" :: Punctuator.leftParen.leaf ::
    Punctuator.rightParen.leaf :: Punctuator.leftBrace.leaf ::
      (expression ++ [Punctuator.semicolon.leaf, Punctuator.rightBrace.leaf])

namespace Node

/-- The block that holds an expression as its only statement. -/
def inBlock (expression : Node) : Node :=
  .bare .compoundStatement [Punctuator.leftBrace.leaf,
    Node.bare .expressionStatement [expression, Punctuator.semicolon.leaf], Punctuator.rightBrace.leaf]

/-- The function `f` without parameters, with a body. -/
def asFunction (body : Node) : Node :=
  .bare .functionDefinition
    [(Node.bare .primitiveType [Token.leaf (.keyword .void) "void"]).as .type,
      (Node.bare .functionDeclarator
        [(Node.bare .identifier [Token.leaf .identifier "f"]).as .declarator,
          (Node.bare .parameterList
            [Punctuator.leftParen.leaf, Punctuator.rightParen.leaf]).as .parameters]).as .declarator,
      body.as .body]

end Node

namespace Rule

variable {sub : Grammar} {height : Nat} {scene after : Scene} {rest : List Token} {e : Expr}

theorem expressionStatement_rebuilds (reparses : sub.Reparses height) (valid : e.Valid)
    (short : e.height ≤ height) (allows : scene.Allows (2 * e.height + 1)) (rest : List Token) :
    (expressionStatement sub).Parses (scene.before (e.leaves ++ Punctuator.semicolon.leaf :: rest))
      (scene.before rest)
      (·.unplaced = .bare .expressionStatement [e.tree, Punctuator.semicolon.leaf]) := by
  have ends : Follows .comma (Punctuator.semicolon.leaf :: rest) := .mark (by decide)
  have whole := expression_rebuilds reparses valid short allows (Level.comma_le _) (by decide) ends
  have value : (unlessAt (.punct .semicolon) (only Node.toChild (expression sub .comma))).Parses
      (scene.before (e.leaves ++ Punctuator.semicolon.leaf :: rest))
      (scene.before (Punctuator.semicolon.leaf :: rest))
      fun children => Node.unplacedChildren children = [e.tree.toChild] := by
    refine (parses_check_opening valid rfl).bind ?_
    rintro _ rfl
    exact whole.bind fun node same => parses_pure (by simp [same])
  refine value.bind fun children same => ?_
  refine (parses_expect rfl).bind fun semicolon atSemicolon => parses_pure ?_
  simp [Node.bare, same, atSemicolon]

/-- An expression statement is neither a label nor a statement of another sort. -/
theorem statement_expression (reparses : sub.Reparses height) (valid : e.Valid)
    (short : e.height ≤ height) (allows : scene.Allows (2 * e.height + 2)) :
    (statement sub).Parses (scene.before (e.leaves ++ Punctuator.semicolon.leaf :: rest))
      (scene.before rest)
      (·.unplaced = .bare .expressionStatement [e.tree, Punctuator.semicolon.leaf]) := by
  have whole := expressionStatement_rebuilds reparses valid short allows.deepen rest
  have noColon := valid.second_ne_colon (Punctuator.semicolon.leaf :: rest) (by rintro _ ⟨⟩ ⟨⟩)
  obtain ⟨first, head, opens⟩ := valid.opens
  obtain ⟨more, leaves⟩ := List.head?_eq_some_iff.mp head
  rw [leaves, List.cons_append] at whole noColon ⊢
  refine parses_token.bind ?_
  rintro _ ⟨here, rfl, rfl⟩
  refine Parses.nested allows.nested ?_
  have opens : here.kind.opensExpression = true := opens
  cases kind : here.kind with
  | identifier =>
    refine (parses_peek 1).bind fun second same => ?_
    have noLabel : second.map (·.kind) ≠ some (.punct .colon) := by
      intro isLabel
      obtain ⟨colon, rfl, isColon⟩ := Option.map_eq_some_iff.mp isLabel
      exact noColon (by rintro _ ⟨⟩; exact kind) colon.unplaced same.symm isColon
    rw [if_neg noLabel]
    exact whole
  | number => exact whole
  | punct mark =>
    rw [kind] at opens
    cases mark <;> first | exact whole | cases opens
  | _ =>
    rw [kind] at opens
    cases opens

/-- Nothing that begins an expression begins a declaration in a block. -/
theorem atLocalDeclaration_false (valid : e.Valid) (allows : scene.Allows 0) :
    atLocalDeclaration.Parses (scene.before (e.leaves ++ rest)) (scene.before (e.leaves ++ rest))
      (· = false) := by
  obtain ⟨first, head, opens⟩ := valid.opens
  obtain ⟨more, leaves⟩ := List.head?_eq_some_iff.mp head
  rw [leaves, List.cons_append]
  refine parses_token.bind ?_
  rintro _ ⟨here, rfl, rfl⟩
  have opens : here.kind.opensExpression = true := opens
  refine parses_scopes.bind ?_
  rintro _ rfl
  cases kind : here.kind with
  | identifier =>
    refine (parses_peek 1).bind fun next _ => parses_pure ?_
    simp [Scene.before, allows.untyped]
  | number | punct mark =>
    refine parses_pure ?_
    simp [Scopes.startsDeclaration, Scopes.startsType, kind]
  | _ =>
    rw [kind] at opens
    cases opens

theorem Parses.recovering {rule : Rule Node} {holds : Node → Prop} {before : Scene} {level : RecoveryLevel}
    (parses : rule.Parses before after holds) : (OpenCLTree.recovering level rule).Parses before after holds := by
  refine parses_snapshot.bind fun start _ => parses.attempt.bind ?_
  rintro _ ⟨node, rfl, here⟩
  exact parses_pure here

/-- A block that holds one expression statement. -/
theorem blockItems_expression (reparses : sub.Reparses height) (valid : e.Valid)
    (short : e.height ≤ height) (allows : scene.Allows (2 * e.height + 2)) :
    (blockItems sub.calling []).Parses
      (scene.before (e.leaves ++ Punctuator.semicolon.leaf :: Punctuator.rightBrace.leaf :: rest))
      (scene.before (Punctuator.rightBrace.leaf :: rest))
      fun items => Node.unplacedChildren items =
        [(Node.bare .expressionStatement [e.tree, Punctuator.semicolon.leaf]).toChild] := by
  obtain ⟨first, head, opens⟩ := valid.opens
  have kind : (scene.before (e.leaves ++ Punctuator.semicolon.leaf :: Punctuator.rightBrace.leaf ::
      rest)).ahead.head?.map (·.kind) = some first.kind := by
    simp [Scene.before, List.head?_append, Option.mem_def.mp head]
  have noBrace : first.kind ≠ .punct .rightBrace := by
    intro brace
    rw [brace] at opens
    cases opens
  have item : (blockItem sub.calling).Parses
      (scene.before (e.leaves ++ Punctuator.semicolon.leaf :: Punctuator.rightBrace.leaf :: rest))
      (scene.before (Punctuator.rightBrace.leaf :: rest))
      (·.unplaced = .bare .expressionStatement [e.tree, Punctuator.semicolon.leaf]) := by
    refine (atLocalDeclaration_false valid (allows.mono (Nat.zero_le _))).bind ?_
    rintro _ rfl
    exact statement_expression reparses valid short allows
  rw [blockItems, many_eq]
  refine manyFrom_next
    (fun child => Node.unplacedChildren [child] =
      [(Node.bare .expressionStatement [e.tree, Punctuator.semicolon.leaf]).toChild])
    (scene.before (Punctuator.rightBrace.leaf :: rest)) (parses_currentKind.bind ?_)
    (by simp only [Scene.before, List.length_append, List.length_cons]; omega) ?_
  · rintro _ rfl
    rw [kind]
    simp only [noBrace, List.contains_nil, Bool.false_eq_true, or_self, if_false]
    exact item.recovering.bind fun node same => parses_pure ⟨_, rfl, by simp [same]⟩
  · intro child same
    refine (manyFrom_stop (parses_currentKind.bind ?_)).mono ?_
    · rintro _ rfl
      exact parses_pure rfl
    · rintro _ rfl
      exact same

theorem compoundStatement_expression (reparses : sub.Reparses height) (valid : e.Valid)
    (short : e.height ≤ height) (allows : scene.Allows (2 * e.height + 2)) (rest : List Token) :
    (compoundStatement sub.calling).Parses
      (scene.before (Punctuator.leftBrace.leaf :: (e.leaves ++ Punctuator.semicolon.leaf ::
        Punctuator.rightBrace.leaf :: rest)))
      (((scene.mapScopes Scopes.enter).mapScopes Scopes.leave).before rest)
      (·.unplaced = e.tree.inBlock) := by
  refine (parses_expect rfl).bind fun opener atOpener => ?_
  refine (blockItems_expression reparses valid short allows.enter).inScope.bind fun items same => ?_
  refine (parses_expect rfl).bind fun closer atCloser => parses_pure ?_
  simp [Node.inBlock, Node.bare, atOpener, same, atCloser]

theorem declareName_function {name opener closer : Token} {tokens : List Token}
    (atName : name.unplaced = .leaf .identifier "f") :
    (declareName (functionDeclarator name opener closer) .ordinary).Parses (scene.before tokens)
      ((scene.mapScopes (·.declare "f" .ordinary)).before tokens) fun _ => True := by
  have text : name.text = "f" := congrArg Token.text atName
  rw [declareName, declaratorName?_functionDeclarator]
  simp only [text]
  exact parses_mapScopes _

theorem definitionAfter_expression (reparses : sub.Reparses height) (valid : e.Valid)
    (short : e.height ≤ height) (allows : scene.Allows (2 * e.height + 2)) {specifiers : Specifiers}
    {name opener closer : Token}
    (atSpecifiers : Node.unplacedChildren specifiers.children =
      [(Node.bare .primitiveType [Token.leaf (.keyword .void) "void"]).as .type])
    (atName : name.unplaced = .leaf .identifier "f")
    (atOpener : opener.unplaced = Punctuator.leftParen.leaf)
    (atCloser : closer.unplaced = Punctuator.rightParen.leaf) :
    (definitionAfter sub.calling .functionDefinition specifiers
      ⟨functionDeclarator name opener closer, []⟩).Parses
        (scene.before (Punctuator.leftBrace.leaf :: (e.leaves ++ Punctuator.semicolon.leaf ::
          Punctuator.rightBrace.leaf :: rest)))
        ((scene.mapScopes Scopes.afterFunction).before rest) (·.unplaced = e.tree.inBlock.asFunction) := by
  have body := compoundStatement_expression reparses valid short (allows.declare "f").enter rest
  refine (declareName_function atName).bind fun _ _ => ?_
  have inside := Parses.inScope ((parses_mapScopes id).bind fun _ _ => body)
  refine inside.bind fun node same => parses_pure ?_
  simp [Node.asFunction, functionDeclarator, Declared.children, Node.bare, Node.ofToken, atSpecifiers,
    atName, atOpener, atCloser, same]

theorem declared_function (room : scene.nesting < nestingLimit) :
    (declared sub.calling).Parses
      (scene.before (.leaf .identifier "f" :: Punctuator.leftParen.leaf :: Punctuator.rightParen.leaf ::
        Punctuator.leftBrace.leaf :: rest))
      (scene.before (Punctuator.leftBrace.leaf :: rest)) fun first => ∃ name opener closer : Token,
        first = ⟨functionDeclarator name opener closer, []⟩ ∧ name.unplaced = .leaf .identifier "f" ∧
          opener.unplaced = Punctuator.leftParen.leaf ∧ closer.unplaced = Punctuator.rightParen.leaf := by
  have found : (requiredDeclarator sub.calling .named).Parses
      (scene.before (.leaf .identifier "f" :: Punctuator.leftParen.leaf :: Punctuator.rightParen.leaf ::
        Punctuator.leftBrace.leaf :: rest))
      (scene.before (Punctuator.leftBrace.leaf :: rest)) fun declarator =>
        ∃ name opener closer : Token, declarator = functionDeclarator name opener closer ∧
          name.unplaced = .leaf .identifier "f" ∧ opener.unplaced = Punctuator.leftParen.leaf ∧
            closer.unplaced = Punctuator.rightParen.leaf := by
    refine ((declarator_function rfl).nested room).bind ?_
    rintro _ ⟨name, opener, closer, rfl, places⟩
    exact parses_pure ⟨name, opener, closer, rfl, places⟩
  refine found.bind ?_
  rintro _ ⟨name, opener, closer, rfl, places⟩
  refine (attributes_none rfl).bind ?_
  rintro _ rfl
  exact parses_pure ⟨name, opener, closer, rfl, places⟩

theorem externalDeclaration_function (reparses : sub.Reparses height) (valid : e.Valid)
    (short : e.height ≤ height) (allows : scene.Allows (2 * e.height + 2)) :
    (externalDeclaration sub.calling).Parses (scene.before (functionLeaves e.leaves))
      ((scene.mapScopes Scopes.afterFunction).before []) (·.unplaced = e.tree.inBlock.asFunction) := by
  rw [functionLeaves]
  refine (declarationSpecifiers_primitive (.inr rfl) rfl).bind ?_
  rintro ⟨children, _⟩ ⟨rfl, atSpecifiers⟩
  refine Parses.bind (parses_accept_none (by rintro ⟨⟩)) ?_
  rintro _ rfl
  refine (declared_function allows.nested).bind ?_
  rintro _ ⟨name, opener, closer, rfl, atName, atOpener, atCloser⟩
  refine (parses_check _).bind ?_
  rintro _ rfl
  exact definitionAfter_expression reparses valid short allows atSpecifiers atName atOpener atCloser

/-- A source of a single item. -/
theorem sourceItems_single {tokens : List Token} {whole : Node} (some : tokens ≠ [])
    (item : (topLevelItem sub).Parses (scene.before tokens) (after.before []) (·.unplaced = whole)) :
    (sourceItems sub).Parses (scene.before tokens) (after.before [])
      fun items => items.map Node.unplaced = [whole] := by
  have atEnd {scene : Scene} : atEnd.Parses scene scene (· = scene.ahead.head?.isNone) :=
    parses_current.bind fun found same => parses_pure (by rw [← same, Option.isNone_map])
  obtain ⟨first, rest, rfl⟩ := List.exists_cons_of_ne_nil some
  rw [sourceItems, many_eq]
  refine manyFrom_next (·.unplaced = whole) (after.before []) (atEnd.bind ?_) (by simp [Scene.before]) ?_
  · rintro _ rfl
    exact item.recovering.some
  · intro item same
    refine (manyFrom_stop (atEnd.bind ?_)).mono ?_
    · rintro _ rfl
      exact parses_pure rfl
    · rintro _ rfl
      simp [same]

theorem sourceItems_function (reparses : sub.Reparses height) (valid : e.Valid)
    (short : e.height ≤ height) (allows : scene.Allows (2 * e.height + 2)) :
    (sourceItems sub.calling).Parses (scene.before (functionLeaves e.leaves))
      ((scene.mapScopes Scopes.afterFunction).before [])
      fun items => items.map Node.unplaced = [e.tree.inBlock.asFunction] := by
  refine sourceItems_single (by simp [functionLeaves]) (parses_currentKind.bind ?_)
  rintro _ rfl
  exact externalDeclaration_function reparses valid short allows

end Rule

/-- Tokens that stand one blank apart are never read together. -/
theorem Word.spell_placedFrom {tokens : List Token} (spelled : ∀ token ∈ tokens, token.IsSpelled)
    (place start : Nat) : Word.Spell (ofTokensFrom place (Token.placedFrom start tokens)) tokens := by
  induction tokens generalizing place start with
  | nil => exact ⟨rfl, by simp [Token.placedFrom, ofTokensFrom]⟩
  | cons token rest ih =>
    obtain ⟨here, later⟩ := List.forall_mem_cons.mp spelled
    have tail := ih later (place + 1) (start + byteLength token.text.toList + 1)
    have apart : (Token.placedFrom (start + byteLength token.text.toList + 1) rest).head?.bind
        (accessorOf? place { token with span := ⟨start, start + byteLength token.text.toList⟩ }) = none := by
      cases rest <;> simp [Token.placedFrom, accessorOf?]
    have unplaced : Token.unplaced { token with span := ⟨place, place + 1⟩ } = token := by
      rw [← here.leaf]
      rfl
    refine ⟨?_, List.forall_mem_cons.mpr ⟨apart, tail.alone⟩⟩
    rw [Token.placedFrom, ofTokensFrom, List.map_cons, tail.tokens]
    exact congrArg (· :: rest) unplaced

/-- A source with a function `f` whose body holds one expression, its tokens one blank apart. -/
def Expr.source (e : Expr) : String :=
  "void f ( ) \x7b " ++ " ".intercalate (e.leaves.map (·.text)) ++ " ; \x7d"

theorem Expr.source_eq (e : Expr) (some : e.leaves ≠ []) :
    e.source = Token.spaced (functionLeaves e.leaves) := by
  have texts : e.leaves.map (·.text) ≠ [] := by simpa using some
  rw [Token.spaced, functionLeaves]
  simp only [List.map_cons, List.map_append, String.intercalate_cons_cons]
  rw [String.intercalate_cons_of_ne_nil (by simp), String.intercalate_append_of_ne_nil texts (by simp)]
  have front : "void f ( ) \x7b " =
      "void" ++ " " ++ ("f" ++ " " ++ ("(" ++ " " ++ (")" ++ " " ++ ("\x7b" ++ " ")))) := rfl
  have back : " ; \x7d" = " " ++ (";" ++ " " ++ "\x7d") := rfl
  rw [Expr.source, front, back]
  simp only [String.append_assoc, List.map_nil]
  rfl

theorem Expr.Valid.functionLeaves_isSpelled {e : Expr} (valid : e.Valid) :
    ∀ token ∈ functionLeaves e.leaves, token.IsSpelled := by
  have mark (mark : Punctuator) (noHash : mark ≠ .hash ∧ mark ≠ .hashHash) : mark.leaf.IsSpelled :=
    mark.leaf_isSpelled noHash.1 noHash.2
  have name : IsName "f" :=
    ⟨by decide +kernel, by decide +kernel, by decide +kernel, by decide +kernel⟩
  simp only [functionLeaves, List.forall_mem_cons, List.forall_mem_append]
  exact ⟨Keyword.void_isSpelled, name.isSpelled, mark _ (by decide), mark _ (by decide),
    mark _ (by decide), valid.isSpelled, mark _ (by decide), mark _ (by decide), by simp⟩

/-- What the grammar makes of tokens that stand one blank apart, if it reads them without an error. -/
theorem Reading.ofTokens_placedFrom {leaves : List Token} {items : List Node} {after : Scene}
    (spelled : ∀ token ∈ leaves, token.IsSpelled)
    (parses : (sourceItems (Grammar.ofDepth leaves.length)).Parses ⟨leaves, Scopes.file, [], 0⟩ after
      (·.map Node.unplaced = items)) (clean : after.reports = []) :
    (Reading.ofTokens (Token.placedFrom 0 leaves)).errors = [] ∧
      (Reading.ofTokens (Token.placedFrom 0 leaves)).items.map Node.unplaced = items := by
  have shows : (GrammarState.ofTokens (Token.placedFrom 0 leaves)).Shows ⟨leaves, Scopes.file, [], 0⟩ :=
    ⟨rfl, Word.spell_placedFrom spelled 0 0, rfl, rfl, rfl⟩
  obtain ⟨last, run, errors⟩ := ofTokens_run (Token.placedFrom 0 leaves)
  rw [Token.length_placedFrom] at run
  obtain ⟨same, shows'⟩ := (parses _ shows).of_done run
  exact ⟨errors.trans (shows'.reports.trans clean), same⟩

/-- What the grammar makes of the tokens of a function around an expression. -/
theorem reading_printed {e : Expr} (valid : e.Valid) (low : e.height ≤ 100) :
    let tokens := Token.placedFrom 0 (functionLeaves e.leaves)
    (Reading.ofTokens tokens).errors = [] ∧
      (Reading.ofTokens tokens).items.map Node.unplaced = [e.tree.inBlock.asFunction] := by
  intro tokens
  have count : (functionLeaves e.leaves).length = e.leaves.length + 6 + 1 := by
    simp [functionLeaves]
  have short : e.height ≤ e.leaves.length + 6 := Nat.le_add_right_of_le (Nat.le_of_lt valid.height_lt)
  let scene : Scene := ⟨[], Scopes.file, [], 0⟩
  have allows : scene.Allows (2 * e.height + 2) :=
    ⟨fun _ => rfl, by simp only [scene, nestingLimit]; omega⟩
  have parses : (sourceItems (Grammar.ofDepth (functionLeaves e.leaves).length)).Parses
      (scene.before (functionLeaves e.leaves)) ((scene.mapScopes Scopes.afterFunction).before [])
      (·.map Node.unplaced = [e.tree.inBlock.asFunction]) := by
    rw [count, Grammar.ofDepth]
    exact Rule.sourceItems_function (Grammar.ofDepth_reparses _) valid short allows
  exact Reading.ofTokens_placedFrom valid.functionLeaves_isSpelled parses rfl

/-- Parsing undoes the printing of expressions. -/
theorem parse_printed {e : Expr} (valid : e.Valid) (low : e.height ≤ 100) :
    (parse e.source).diagnostics = [] ∧
      (parse e.source).tree.root.unplaced = .bare .sourceFile [e.tree.inBlock.asFunction] := by
  obtain ⟨errors, items⟩ := reading_printed valid low
  have some : e.leaves ≠ [] := List.ne_nil_of_length_pos (Nat.zero_lt_of_lt valid.height_lt)
  have tokens := tokenize_spaced valid.functionLeaves_isSpelled
  rw [← e.source_eq some] at tokens
  constructor
  · rw [diagnostics_eq_nil, tokens]
    exact ⟨rfl, errors⟩
  · rw [unplaced_root, tokens, items]
    rfl

/-- `x = - a [ 1 ] * ( int ) b` -/
def Expr.product : Expr :=
  .infixed ⟨.punct .assign, "=", .assignment, .right, .infixOp⟩ (.name "x")
    (.infixed ⟨.punct .star, "*", .multiplicative, .left, .infixOp⟩
      (.prefixed .minus (.subscript (.name "a") (.number "1"))) (.cast (.name "b")))

theorem Expr.product_valid : product.Valid := by
  have name (text : String) (letter : text = "x" ∨ text = "a" ∨ text = "b") : (Expr.name text).Valid := by
    rcases letter with rfl | rfl | rfl <;>
      exact .name ⟨by decide +kernel, by decide +kernel, by decide +kernel, by decide +kernel⟩
        (by decide +kernel)
  have one : (Expr.number "1").Valid :=
    .number ⟨TokenRule.decimalInteger, by simp [TokenRule.decimals], by decide +kernel⟩
  have element : (Expr.subscript (.name "a") (.number "1")).Valid := .subscript rfl (name _ (by simp)) one
  refine .infixed (by decide) rfl (by decide) ⟨by decide, by decide⟩ (name _ (by simp)) ?_
  exact .infixed (by decide) rfl (by decide) ⟨by decide, by decide⟩
    (.signed (by decide) (by decide) element) (.cast (by decide) (name _ (by simp)))

theorem parse_printed_product :
    (parse "void f ( ) \x7b x = - a [ 1 ] * ( int ) b ; \x7d").diagnostics = [] ∧
      (parse "void f ( ) \x7b x = - a [ 1 ] * ( int ) b ; \x7d").tree.root.unplaced =
        .bare .sourceFile [Expr.product.tree.inBlock.asFunction] := by
  have text : Expr.product.source = "void f ( ) \x7b x = - a [ 1 ] * ( int ) b ; \x7d" := by
    rfl
  rw [← text]
  exact parse_printed Expr.product_valid (by decide)

end OpenCLTree

import OpenCLTree.Proofs.Printing.Expr
import OpenCLTree.Proofs.Printing.Scene
import OpenCLTree.Grammar.SourceFile

namespace OpenCLTree

/-- Whether a token ends the specifiers of a declaration. -/
def TokenKind.endsSpecifiers : TokenKind → Bool
  | .qualifier _ | .keyword .attributeKw => false
  | _ => true

/-- The declarator of a function without parameters. -/
def functionDeclarator (name opener closer : Token) : Node :=
  .make .functionDeclarator [(Node.ofToken .identifier name).as .declarator,
    (Node.make .parameterList [opener, closer]).as .parameters]

theorem declaratorName?_functionDeclarator (name opener closer : Token) :
    (functionDeclarator name opener closer).declaratorName? = some name :=
  rfl

namespace Rule

variable {sub : Grammar} {scene after : Scene} {token next : Token} {rest : List Token}

theorem qualifiers_none {specifiers : Specifiers} (ends : token.kind.endsSpecifiers = true) :
    (qualifiers sub specifiers).Parses (scene.before (token :: rest)) (scene.before (token :: rest))
      (· = specifiers) := by
  refine Parses.loop_stop (parses_token.bind ?_)
  rintro _ ⟨here, rfl, rfl⟩
  have ends : here.kind.endsSpecifiers = true := ends
  dsimp only
  split
  · rename_i kind
    simp [kind, TokenKind.endsSpecifiers] at ends
  · rename_i kind
    simp [kind, TokenKind.endsSpecifiers] at ends
  · exact parses_pure ⟨specifiers, rfl, rfl⟩

theorem attributes_none (ends : token.kind.endsSpecifiers = true) :
    (attributes sub).Parses (scene.before (token :: rest)) (scene.before (token :: rest)) (· = []) := by
  have other : (some token.kind == some (TokenKind.keyword .attributeKw)) = false := by
    rw [beq_eq_false_iff_ne]
    intro same
    rw [Option.some.inj same] at ends
    cases ends
  rw [attributes, many_eq]
  refine manyFrom_stop ((parses_check _).bind ?_)
  rintro _ rfl
  simp only [Scene.before, List.head?_cons, Option.map_some, other]
  exact parses_pure rfl

/-- A type that is a single keyword, in front of a token that is no qualifier. -/
theorem declarationSpecifiers_primitive (primitive : token.kind = .keyword .int ∨ token.kind = .keyword .void)
    (ends : next.kind.endsSpecifiers = true) :
    (declarationSpecifiers sub).Parses (scene.before (token :: next :: rest)) (scene.before (next :: rest))
      fun specifiers => specifiers.qualifiers = .empty ∧ Node.unplacedChildren specifiers.children =
        [(Node.bare .primitiveType [token]).as .type] := by
  have word : token.kind.endsSpecifiers = true := by
    rcases primitive with kind | kind <;> simp [kind, TokenKind.endsSpecifiers]
  refine (qualifiers_none word).bind ?_
  rintro _ rfl
  refine parses_token.bind ?_
  rintro _ ⟨here, rfl, rfl⟩
  have primitive : here.kind = .keyword .int ∨ here.kind = .keyword .void := primitive
  have isType : scene.scopes.startsType here = true := by
    rcases primitive with kind | kind <;> simp [Scopes.startsType, kind, isTypeKeyword]
  refine (parses_startsType here).bind ?_
  rintro _ rfl
  simp only [Scene.before, isType, if_true]
  have type : (typeSpecifier sub).Parses (scene.before (here.unplaced :: next :: rest))
      (scene.before (next :: rest)) (·.unplaced = .bare .primitiveType [here.unplaced]) := by
    refine parses_token.bind ?_
    rintro _ ⟨again, rfl, same⟩
    have kind : again.unplaced.kind = here.unplaced.kind := congrArg Token.kind same
    have kind : again.kind = here.kind := kind
    have read : (typeToken .primitiveType again).Parses (scene.before (here.unplaced :: next :: rest))
        (scene.before (next :: rest)) (·.unplaced = .bare .primitiveType [here.unplaced]) :=
      parses_advance.bind fun _ _ => parses_pure (by simp [Node.ofToken, Node.bare, same])
    rcases primitive with atInt | atVoid
    · simp only [kind, atInt]
      exact read
    · simp only [kind, atVoid]
      exact read
  refine type.bind fun node same => (qualifiers_none ends).mono ?_
  rintro _ rfl
  exact ⟨rfl, by simp [same]⟩

/-- No declarator stands in front of a closing parenthesis. -/
theorem declarator_unnamed :
    (declarator sub .unnamed).Parses (scene.before (Punctuator.rightParen.leaf :: rest))
      (scene.before (Punctuator.rightParen.leaf :: rest)) (· = none) := by
  refine (parses_accept_none (by rintro ⟨⟩)).bind ?_
  rintro _ rfl
  have core : (declaratorCore sub .unnamed).Parses (scene.before (Punctuator.rightParen.leaf :: rest))
      (scene.before (Punctuator.rightParen.leaf :: rest)) (· = none) := by
    refine parses_token.bind ?_
    rintro _ ⟨here, rfl, same⟩
    have kind : here.kind = .punct .rightParen := congrArg Token.kind same
    simp only [kind]
    exact parses_pure rfl
  refine core.bind ?_
  rintro _ rfl
  refine Parses.loop_stop (parses_currentKind.bind ?_)
  rintro _ rfl
  exact parses_pure ⟨none, rfl, rfl⟩

theorem typeDescriptor_calling :
    (typeDescriptor sub.calling).Parses
      (scene.before (.leaf (.keyword .int) "int" :: Punctuator.rightParen.leaf :: rest))
      (scene.before (Punctuator.rightParen.leaf :: rest)) (·.unplaced = intType) := by
  refine (declarationSpecifiers_primitive (.inl rfl) rfl).bind ?_
  rintro specifiers ⟨_, children⟩
  refine declarator_unnamed.bind ?_
  rintro _ rfl
  exact parses_pure (by simp [children, intType, Node.bare])

theorem parameterList_empty :
    (parameterList sub).Parses
      (scene.before (Punctuator.leftParen.leaf :: Punctuator.rightParen.leaf :: rest)) (scene.before rest)
      fun list => ∃ opener closer : Token, list = .make .parameterList [opener.toChild, closer.toChild] ∧
        opener.unplaced = Punctuator.leftParen.leaf ∧ closer.unplaced = Punctuator.rightParen.leaf := by
  have empty : (parameters sub).Parses (scene.before (Punctuator.rightParen.leaf :: rest))
      (scene.before (Punctuator.rightParen.leaf :: rest)) (· = []) := by
    refine Parses.loop_stop ((parses_check _).bind ?_)
    rintro _ rfl
    exact parses_pure ⟨[], rfl, rfl⟩
  refine (parses_expect rfl).bind fun opener atOpener => ?_
  refine empty.bind ?_
  rintro _ rfl
  exact (parses_expect rfl).bind fun closer atCloser =>
    parses_pure ⟨opener, closer, rfl, atOpener, atCloser⟩

theorem functionSuffix_empty {name : Token} :
    (functionSuffix sub (some (.ofToken .identifier name))).Parses
      (scene.before (Punctuator.leftParen.leaf :: Punctuator.rightParen.leaf :: rest)) (scene.before rest)
      fun node => ∃ opener closer : Token, node = functionDeclarator name opener closer ∧
        opener.unplaced = Punctuator.leftParen.leaf ∧ closer.unplaced = Punctuator.rightParen.leaf := by
  refine parameterList_empty.bind ?_
  rintro _ ⟨opener, closer, rfl, atOpener, atCloser⟩
  exact parses_pure ⟨opener, closer, rfl, atOpener, atCloser⟩

theorem declaratorCore_name (kind : token.kind = .identifier) :
    (declaratorCore sub .named).Parses (scene.before (token :: rest)) (scene.before rest) fun core =>
      ∃ name, core = some (.ofToken .identifier name) ∧ name.unplaced = token := by
  refine parses_token.bind ?_
  rintro _ ⟨here, rfl, rfl⟩
  have kind : here.kind = .identifier := kind
  simp only [kind]
  exact parses_advance.bind fun _ _ => parses_pure ⟨here, rfl, rfl⟩

/-- A name with an empty parameter list, in front of a body. -/
theorem declarator_function (kind : token.kind = .identifier) :
    (declarator sub .named).Parses
      (scene.before (token :: Punctuator.leftParen.leaf :: Punctuator.rightParen.leaf ::
        Punctuator.leftBrace.leaf :: rest))
      (scene.before (Punctuator.leftBrace.leaf :: rest)) fun found => ∃ name opener closer : Token,
        found = some (functionDeclarator name opener closer) ∧ name.unplaced = token ∧
          opener.unplaced = Punctuator.leftParen.leaf ∧ closer.unplaced = Punctuator.rightParen.leaf := by
  refine (parses_accept_none (by simp [Scene.before, kind])).bind ?_
  rintro _ rfl
  refine (declaratorCore_name kind).bind ?_
  rintro _ ⟨name, rfl, atName⟩
  refine Parses.loop_next (scene.before (Punctuator.leftBrace.leaf :: rest)) (parses_currentKind.bind ?_)
    (by simp [Scene.before])
  rintro _ rfl
  refine functionSuffix_empty.bind ?_
  rintro _ ⟨opener, closer, rfl, atOpener, atCloser⟩
  refine parses_pure ⟨_, rfl, Parses.loop_stop (parses_currentKind.bind ?_)⟩
  rintro _ rfl
  exact parses_pure ⟨_, rfl, name, opener, closer, rfl, atName, atOpener, atCloser⟩

end Rule

end OpenCLTree

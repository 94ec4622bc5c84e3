import OpenCLTree.Proofs.Echo.Declaration
import OpenCLTree.Proofs.Echo.Expression
import OpenCLTree.Proofs.Echo.Recovery
import OpenCLTree.Grammar.Statement

namespace OpenCLTree

namespace Rule

variable {α : Type} [Echoed α] {e : Echo} {one two : Grammar} {guard post : Guard}
  {margin gain : Nat} {state : GrammarState}

/-- Whether a declaration comes next in a block, as the first two tokens tell. -/
theorem atLocalDeclaration_eq (state : GrammarState) :
    atLocalDeclaration state = .done ((state.cursor.peek? 0).any fun token =>
      match token.kind with
      | .identifier => state.scopes.isType token.text &&
          (state.cursor.peek? 1).map (·.kind) != some (.punct .colon)
      | _ => state.scopes.startsDeclaration token) state := by
  have looked : current state = .done (state.cursor.peek? 0) state := rfl
  have asked : scopes state = .done state.scopes state := rfl
  unfold atLocalDeclaration
  rw [bind_done looked]
  cases state.cursor.peek? 0 with
  | none => rfl
  | some token =>
    simp only [Option.any_some]
    unfold startsLocalDeclaration
    rw [bind_done asked]
    generalize token.kind = kind
    cases kind <;> rfl

theorem atLocalDeclaration_echoes {next next' : Bool → Rule α}
    (later : ∀ found, (next found).EchoesAt e none none 1 1 (next' found) state) :
    (atLocalDeclaration >>= next).EchoesAt e none none 1 1 (atLocalDeclaration >>= next') state := by
  refine .look (fun _ => atLocalDeclaration_eq state)
    (fun other sound agrees (reaches : e.Reaches 2 state) => ?_) (later _) (Nat.le_refl 2)
    fun guards => .inl (Echo.guards_none.mp guards)
  have near : e.Reaches 1 state := reaches.imp_right Nat.le_of_succ_le
  rw [atLocalDeclaration_eq, agrees.peek? sound reaches, agrees.peek? sound near]
  cases found : state.cursor.peek? 0 with
  | none => rfl
  | some token =>
    have knows := sound.knows found
    simp only [Option.map_some, Option.any_some, e.kind, e.text, agrees.startsDeclaration knows,
      Option.map_map, Function.comp_def]
    split
    · rename_i isName
      rw [agrees.isType (knows isName)]
    · rfl

theorem blockItem_echoes (echoes : one.Echoes e two) :
    (blockItem one).EchoesAt e none none 1 1 (blockItem two) state := by
  refine atLocalDeclaration_echoes fun found => ?_
  split
  · exact (localDeclaration_echoes echoes).weaken (Nat.zero_le 1) (by omega)
  · exact echoes.statement state

theorem blockItems_echoes (echoes : one.Echoes e two) (stops : List TokenKind) :
    (blockItems one stops).EchoesAt e none none 1 0 (blockItems two stops) state := by
  refine .many fun s => ?_
  refine .currentKind (fun _ => .ofValue (by simp)) fun word rest words => ?_
  split
  · rename_i none
    cases none
  · rename_i kind same
    cases same
    split
    · exact .ofValue (by simp)
    · exact .bind (recovering_echoes (blockItem_echoes echoes)) fun item s1 _ => .ofValue (by simp)

theorem compoundStatement_echoes (echoes : one.Echoes e two) :
    (compoundStatement one).EchoesAt e none none 0 2 (compoundStatement two) state := by
  refine .expectBrace fun _ opener rest _ => ?_
  refine .bind (.inScope (blockItems_echoes echoes [])) fun items s1 _ => ?_
  refine .bind (.expect fun _ _ _ => .inl rfl) fun closer s2 _ => ?_
  exact .ofValue (by simp)

theorem ifStatement_echoes (echoes : one.Echoes e two) :
    (ifStatement one).EchoesAt e none none 1 1 (ifStatement two) state := by
  unfold ifStatement
  refine .bind (.expectStays rfl) fun word s1 _ => ?_
  refine .bind (parenthesizedExpression_echoes echoes) fun condition s2 _ => ?_
  refine .bind (echoes.statement s2) fun consequence s3 _ => ?_
  refine .acceptStays rfl (fun word rest _ _ => ?_) fun _ => .ofValue (by simp)
  refine .bind (echoes.statement _) fun body s4 _ => ?_
  exact .ofValue (by simp)

theorem whileStatement_echoes (echoes : one.Echoes e two) :
    (whileStatement one).EchoesAt e none none 1 1 (whileStatement two) state := by
  unfold whileStatement
  refine .bind (.expectStays rfl) fun word s1 _ => ?_
  refine .bind (parenthesizedExpression_echoes echoes) fun condition s2 _ => ?_
  refine .bind (echoes.statement s2) fun body s3 _ => ?_
  exact .ofValue (by simp)

theorem doStatement_echoes (echoes : one.Echoes e two) :
    (doStatement one).EchoesAt e none none 1 1 (doStatement two) state := by
  unfold doStatement
  refine .bind (.expectStays rfl) fun word s1 _ => ?_
  refine .bind (echoes.statement s1) fun body s2 _ => ?_
  refine .bind (.expectStays rfl) fun until_ s3 _ => ?_
  refine .bind (parenthesizedExpression_echoes echoes) fun condition s4 _ => ?_
  refine .bind (.expectEnds (.inr rfl)) fun semicolon s5 _ => ?_
  exact .ofValue (by simp)

theorem forInitializer_echoes (echoes : one.Echoes e two) :
    (forInitializer one).EchoesAt e none none 1 1 (forInitializer two) state := by
  unfold forInitializer
  refine .acceptLast (fun semicolon => _) (fun semicolon => ⟨rfl, ?_⟩) fun _ => ?_
  · simp
  refine atLocalDeclaration_echoes fun found => ?_
  split
  · exact .bind (localDeclaration_echoes echoes) fun declaration s1 _ => .ofValue (by simp)
  · refine .bind (echoes.expression none state .comma) fun value s1 _ => ?_
    refine .bind (.expectEnds (.inr rfl)) fun semicolon s2 _ => ?_
    exact .ofValue (by simp)

theorem optionalExpression_echoes (echoes : one.Echoes e two) (field : Field) (closer : TokenKind) :
    (optionalExpression one field closer).EchoesAt e none none 0 1
      (optionalExpression two field closer) state := by
  unfold optionalExpression
  refine .bind (.unlessAt (.only (echoes.expression none state .comma) fun _ => rfl))
    fun value s1 _ => ?_
  refine .bind (.expect fun _ _ _ => .inl rfl) fun token s2 _ => ?_
  exact .ofValue (by simp)

theorem forStatement_echoes (echoes : one.Echoes e two) :
    (forStatement one).EchoesAt e none none 1 1 (forStatement two) state := by
  unfold forStatement
  refine .bind (.expectStays rfl) fun word s1 _ => ?_
  refine .bind (.expect fun _ _ _ => .inl rfl) fun opener s2 _ => ?_
  refine .bind (.inScope (?_ : EchoesAt e none none 1 1 _ _ _)) fun rest s3 _ => .ofValue (by simp)
  refine .bind (forInitializer_echoes echoes) fun initializer s4 _ => ?_
  refine .bind (optionalExpression_echoes echoes _ _) fun condition s5 _ => ?_
  refine .bind (optionalExpression_echoes echoes _ _) fun update s6 _ => ?_
  refine .bind (echoes.statement s6) fun body s7 _ => ?_
  exact .ofValue (by simp)

theorem switchStatement_echoes (echoes : one.Echoes e two) :
    (switchStatement one).EchoesAt e none none 1 1 (switchStatement two) state := by
  unfold switchStatement
  refine .bind (.expectStays rfl) fun word s1 _ => ?_
  refine .bind (parenthesizedExpression_echoes echoes) fun condition s2 _ => ?_
  refine .bind (compoundStatement_echoes echoes) fun body s3 _ => ?_
  exact .ofValue (by simp)

theorem caseLabel_echoes (echoes : one.Echoes e two) :
    (caseLabel one).EchoesAt e none none 1 1 (caseLabel two) state := by
  unfold caseLabel
  refine .acceptStays rfl (fun word rest _ _ => ?_) fun _ => ?_
  · exact .bind (echoes.expression none _ .conditional) fun value s1 _ => .ofValue (by simp)
  · exact .bind (.expectStays rfl) fun word s1 _ => .ofValue (by simp)

theorem caseStatement_echoes (echoes : one.Echoes e two) :
    (caseStatement one).EchoesAt e none none 1 1 (caseStatement two) state := by
  unfold caseStatement
  refine .bind (caseLabel_echoes echoes) fun label s1 _ => ?_
  refine .bind (.expectStays rfl) fun colon s2 _ => ?_
  refine .bind (blockItems_echoes echoes _) fun items s3 _ => ?_
  exact .ofValue (by simp)

theorem returnStatement_echoes (echoes : one.Echoes e two) :
    (returnStatement one).EchoesAt e none none 1 1 (returnStatement two) state := by
  unfold returnStatement
  refine .bind (.expectStays rfl) fun word s1 _ => ?_
  refine .bind (.unlessAt (.only (echoes.expression none s1 .comma) fun _ => rfl))
    fun value s2 _ => ?_
  refine .bind (.expectEnds (.inr rfl)) fun semicolon s3 _ => ?_
  exact .ofValue (by simp)

theorem jumpStatement_echoes (keyword : Keyword) (kind : NodeKind) :
    (jumpStatement keyword kind).EchoesAt e none none 1 1 (jumpStatement keyword kind) state := by
  unfold jumpStatement
  refine .bind (.expectStays rfl) fun word s1 _ => ?_
  refine .bind (.expectEnds (.inr rfl)) fun semicolon s2 _ => ?_
  exact .ofValue (by simp)

theorem gotoStatement_echoes : gotoStatement.EchoesAt e none none 1 1 gotoStatement state := by
  unfold gotoStatement
  refine .bind (.expectStays rfl) fun word s1 _ => ?_
  refine .bind (.expectStays rfl) fun label s2 _ => ?_
  refine .bind (.expectEnds (.inr rfl)) fun semicolon s3 _ => ?_
  exact .ofValue (by simp)

theorem labeledStatement_echoes (echoes : one.Echoes e two) :
    (labeledStatement one).EchoesAt e none none 1 1 (labeledStatement two) state := by
  unfold labeledStatement
  refine .bind (.expectStays rfl) fun label s1 _ => ?_
  refine .bind (.expectStays rfl) fun colon s2 _ => ?_
  refine .bind (echoes.statement s2) fun body s3 _ => ?_
  exact .ofValue (by simp)

theorem expressionStatement_echoes (echoes : one.Echoes e two) :
    (expressionStatement one).EchoesAt e none none 1 1 (expressionStatement two) state := by
  unfold expressionStatement
  refine .bind (.unlessAt (.only (expression_echoes echoes .comma) fun _ => rfl))
    fun value s1 _ => ?_
  refine .bind (.expectEnds (.inr rfl)) fun semicolon s2 _ => ?_
  exact .ofValue (by simp)

theorem statement_echoes (echoes : one.Echoes e two) :
    (statement one).EchoesAt e none none 1 1 (statement two) state := by
  unfold statement
  refine .current (fun _ => .failExpecting _ _) fun word rest words => ?_
  dsimp only
  rw [e.kind]
  refine .nested ?_
  split
  case h_1 => exact .nested ((compoundStatement_echoes echoes).weaken (Nat.zero_le 1) (by omega))
  case h_2 => exact ifStatement_echoes echoes
  case h_3 => exact whileStatement_echoes echoes
  case h_4 => exact doStatement_echoes echoes
  case h_5 => exact forStatement_echoes echoes
  case h_6 => exact switchStatement_echoes echoes
  case h_7 | h_8 => exact caseStatement_echoes echoes
  case h_9 => exact returnStatement_echoes echoes
  case h_10 | h_11 => exact jumpStatement_echoes _ _
  case h_12 => exact gotoStatement_echoes
  case h_13 => exact pragmaLine_echoes.weaken (Nat.zero_le 1) (Nat.le_refl 1)
  case h_14 => exact directiveLine_echoes.weaken (Nat.zero_le 1) (Nat.le_refl 1)
  case h_15 =>
    refine .peek ?_ (Nat.le_refl 2) fun guards => .inl (Echo.guards_none.mp guards)
    simp only [Option.map_map, Function.comp_def, e.kind]
    split
    · exact labeledStatement_echoes echoes
    · exact expressionStatement_echoes echoes
  case h_16 => exact expressionStatement_echoes echoes

end Rule

end OpenCLTree

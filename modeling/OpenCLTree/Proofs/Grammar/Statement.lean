import OpenCLTree.Proofs.Grammar.Declaration
import OpenCLTree.Proofs.Grammar.Recovery
import OpenCLTree.Grammar.Statement

namespace OpenCLTree

namespace Rule

variable {sub : Grammar} {room : Nat} {first state : GrammarState}

theorem atLocalDeclaration_meets {done : Bool → GrammarState → Prop}
    {failed : ParseError → GrammarState → Prop} (either : ∀ starts, done starts state) :
    atLocalDeclaration.Meets state done failed := by
  unfold atLocalDeclaration
  rw [meets_bind, meets_current]
  split
  · unfold startsLocalDeclaration
    rw [meets_bind, meets_scopes]
    split <;> exact either _
  · exact either false

theorem blockItem_builds (serves : sub.Serves room) (fits : state.Fits room) :
    (blockItem sub).Builds state := by
  unfold blockItem Builds
  rw [meets_bind]
  refine atLocalDeclaration_meets fun starts => ?_
  split
  · exact localDeclaration_builds serves fits.weaken
  · exact serves.statement fits

theorem blockItems_builds {stops : List TokenKind} (serves : sub.Serves room)
    (fits : state.Fits room) : (blockItems sub stops).Builds state := by
  refine many_builds fits (by simp) fun state fits => ?_
  unfold Builds
  rw [meets_bind, meets_currentKind]
  split
  · exact .nothing state
  · rename_i here
    split
    · exact .nothing state
    · have some : state.cursor.peek? 0 ≠ none := by
        intro none
        simp [none] at here
      refine (ReadsWith.nothing state).step
        (recovering_builds fits.lawful some (blockItem_builds serves fits)) fun item _ _ sofar => ?_
      exact sofar

theorem compoundStatement_builds (serves : sub.Serves room) (fits : state.Fits (room + 1)) :
    (compoundStatement sub).Builds state := by
  refine (ReadsWith.nothing state).step (expect_builds _ _) fun opener s1 _ sofar => ?_
  have fits1 := sofar.fits_pred fits (by simp)
  refine sofar.step (inScope_builds (blockItems_builds serves (fits1.mapScopes _)))
    fun items s2 _ sofar => ?_
  refine sofar.step (expect_builds _ _) fun closer s3 _ sofar => ?_
  exact sofar.wrap (by simp) (.plain rfl (by simp))

theorem ifStatement_builds (serves : sub.Serves room) (fits : state.Fits (room + 1)) :
    (ifStatement sub).Builds state := by
  refine (ReadsWith.nothing state).step (expect_builds _ _) fun word s1 _ sofar => ?_
  have fits1 := sofar.fits_pred fits (by simp)
  refine sofar.step (parenthesizedExpression_builds serves fits1.weaken)
    fun condition s2 readCondition sofar => ?_
  refine sofar.step (serves.statement (readCondition.fits fits1))
    fun consequence s3 readConsequence front => ?_
  have fits3 := (readCondition.join readConsequence).fits fits1
  refine front.step (accept_builds _ _) fun found s4 readElse sofar => ?_
  cases found with
  | none => exact sofar.wrap (by simp) (.plain rfl (by simp))
  | some otherwise =>
    refine sofar.step (serves.statement (readElse.fits fits3)) fun body s5 readBody _ => ?_
    have clause : Reads s3 [(Node.make .elseClause [otherwise, body]).toChild] s5 :=
      (readElse.join readBody).wrap (by simp) (.plain rfl (by simp))
    exact (front.join clause).wrap (by simp) (.plain rfl (by simp))

theorem whileStatement_builds (serves : sub.Serves room) (fits : state.Fits (room + 1)) :
    (whileStatement sub).Builds state := by
  refine (ReadsWith.nothing state).step (expect_builds _ _) fun word s1 _ sofar => ?_
  refine sofar.step (parenthesizedExpression_builds serves (sofar.fits fits))
    fun condition s2 _ sofar => ?_
  refine sofar.step (serves.statement (sofar.fits_pred fits (by simp))) fun body s3 _ sofar => ?_
  exact sofar.wrap (by simp) (.plain rfl (by simp))

theorem doStatement_builds (serves : sub.Serves room) (fits : state.Fits (room + 1)) :
    (doStatement sub).Builds state := by
  refine (ReadsWith.nothing state).step (expect_builds _ _) fun word s1 _ sofar => ?_
  refine sofar.step (serves.statement (sofar.fits_pred fits (by simp))) fun body s2 _ sofar => ?_
  refine sofar.step (expect_builds _ _) fun until_ s3 _ sofar => ?_
  refine sofar.step (parenthesizedExpression_builds serves (sofar.fits fits))
    fun condition s4 _ sofar => ?_
  refine sofar.step (expect_builds _ _) fun semicolon s5 _ sofar => ?_
  exact sofar.wrap (by simp) (.plain rfl (by simp))

theorem forInitializer_builds (serves : sub.Serves room) (fits : state.Fits room) :
    (forInitializer sub).Builds state := by
  refine (ReadsWith.nothing state).step (accept_builds _ _) fun found s1 _ sofar => ?_
  cases found with
  | some semicolon => exact sofar
  | none =>
    rw [meets_bind]
    refine atLocalDeclaration_meets fun starts => ?_
    split
    · refine sofar.step (localDeclaration_builds serves (sofar.fits fits).weaken)
        fun declaration s2 _ sofar => ?_
      exact sofar
    · refine sofar.step (serves.expression _ (sofar.fits fits)) fun value s2 _ sofar => ?_
      refine sofar.step (expect_builds _ _) fun semicolon s3 _ sofar => ?_
      exact sofar

theorem optionalExpression_builds {field : Field} {closer : TokenKind} (serves : sub.Serves room)
    (fits : state.Fits room) : (optionalExpression sub field closer).Builds state := by
  refine (ReadsWith.nothing state).step
    (unlessAt_builds (only_builds (serves.expression _ fits) fun _ => rfl))
    fun value s1 _ sofar => ?_
  refine sofar.step (expect_builds _ _) fun token s2 _ sofar => ?_
  simpa using sofar

theorem forStatement_builds (serves : sub.Serves room) (fits : state.Fits (room + 1)) :
    (forStatement sub).Builds state := by
  refine (ReadsWith.nothing state).step (expect_builds _ _) fun word s1 _ sofar => ?_
  refine sofar.step (expect_builds _ _) fun opener s2 _ sofar => ?_
  have fits2 := (sofar.fits_pred fits (by simp)).mapScopes Scopes.enter
  refine sofar.step (inScope_builds ?_) fun rest s3 _ sofar => ?_
  · refine (ReadsWith.nothing _).step (forInitializer_builds serves fits2)
      fun initializer s3 _ sofar => ?_
    refine sofar.step (optionalExpression_builds serves (sofar.fits fits2))
      fun condition s4 _ sofar => ?_
    refine sofar.step (optionalExpression_builds serves (sofar.fits fits2))
      fun update s5 _ sofar => ?_
    refine sofar.step (serves.statement (sofar.fits fits2)) fun body s6 _ sofar => ?_
    simpa using sofar
  · exact sofar.wrap (by simp) (.plain rfl (by simp))

theorem switchStatement_builds (serves : sub.Serves room) (fits : state.Fits (room + 1)) :
    (switchStatement sub).Builds state := by
  refine (ReadsWith.nothing state).step (expect_builds _ _) fun word s1 _ sofar => ?_
  refine sofar.step (parenthesizedExpression_builds serves (sofar.fits fits))
    fun condition s2 _ sofar => ?_
  refine sofar.step (compoundStatement_builds serves (sofar.fits fits)) fun body s3 _ sofar => ?_
  exact sofar.wrap (by simp) (.plain rfl (by simp))

/-- The value of a label binds as tightly as it must. -/
theorem caseLabel_builds (serves : sub.Serves room) (fits : state.Fits (room + 1)) :
    (caseLabel sub).BuildsWith (fun label _ => ∀ child ∈ label, child.Binds .caseStatement) state := by
  refine (ReadsWith.nothing state).step (accept_builds _ _) fun found s1 _ sofar => ?_
  cases found with
  | some word =>
    refine sofar.stepWith (serves.expressionLevel _ (sofar.fits_pred fits (by simp)))
      fun value s2 tight _ sofar => ?_
    exact ⟨by simp [NodeKind.partLevel, tight], sofar⟩
  | none =>
    refine sofar.step (expect_builds _ _) fun word s2 _ sofar => ?_
    exact ⟨by simp, sofar⟩

theorem caseStatement_builds (serves : sub.Serves room) (fits : state.Fits (room + 1)) :
    (caseStatement sub).Builds state := by
  refine (ReadsWith.nothing state).stepWith (caseLabel_builds serves fits)
    fun label s1 binds _ sofar => ?_
  refine sofar.step (expect_builds _ _) fun colon s2 _ sofar => ?_
  refine sofar.stepWith (Meets.gives (blockItems_builds serves (sofar.fits_pred fits (by simp)))
    blockItems_gives) fun items s3 fields _ sofar => ?_
  have loose : ∀ child ∈ items, child.Binds .caseStatement :=
    Child.binds_of_fields fun child member => by rw [fields child member]; rfl
  refine sofar.wrap (by simp) (.binding rfl rfl (by simp) (.ofParts rfl rfl ?_))
  simp only [List.forall_mem_append, List.forall_mem_singleton]
  exact ⟨⟨binds, trivial⟩, loose⟩

theorem returnStatement_builds (serves : sub.Serves room) (fits : state.Fits (room + 1)) :
    (returnStatement sub).Builds state := by
  refine (ReadsWith.nothing state).step (expect_builds _ _) fun word s1 _ sofar => ?_
  have fits1 := sofar.fits_pred fits (by simp)
  refine sofar.step (unlessAt_builds (only_builds (serves.expression _ fits1) fun _ => rfl))
    fun value s2 _ sofar => ?_
  refine sofar.step (expect_builds _ _) fun semicolon s3 _ sofar => ?_
  exact sofar.wrap (by simp) (.plain rfl (by simp))

theorem jumpStatement_builds {keyword : Keyword} {kind : NodeKind} (plain : kind.isPlain = true) :
    (jumpStatement keyword kind).Builds state := by
  refine (ReadsWith.nothing state).step (expect_builds _ _) fun word s1 _ sofar => ?_
  refine sofar.step (expect_builds _ _) fun semicolon s2 _ sofar => ?_
  exact sofar.wrap (by simp) (.plain plain (by simp))

theorem gotoStatement_builds (state : GrammarState) : gotoStatement.Builds state := by
  refine (ReadsWith.nothing state).step (expect_builds _ _) fun word s1 _ front => ?_
  refine front.step (expect_builds _ _) fun label s2 readLabel sofar => ?_
  refine sofar.step (expect_builds _ _) fun semicolon s3 readSemicolon _ => ?_
  have name := readLabel.leaf (.identifier label)
  exact ((front.join name).join readSemicolon).wrap (by simp) (.plain rfl (by simp))

theorem labeledStatement_builds (serves : sub.Serves room) (fits : state.Fits (room + 1)) :
    (labeledStatement sub).Builds state := by
  refine (ReadsWith.nothing state).step (expect_builds _ _) fun label s1 readLabel _ => ?_
  have sofar := readLabel.leaf (.identifier label)
  refine sofar.step (expect_builds _ _) fun colon s2 _ sofar => ?_
  refine sofar.step (serves.statement (sofar.fits_pred fits (by simp))) fun body s3 _ sofar => ?_
  exact sofar.wrap (by simp) (.plain rfl (by simp))

theorem expressionStatement_builds (serves : sub.Serves room) (fits : state.Fits (room + 1)) :
    (expressionStatement sub).Builds state := by
  refine (ReadsWith.nothing state).step
    (unlessAt_builds (only_builds (expression_builds serves fits).builds fun _ => rfl))
    fun value s1 _ sofar => ?_
  refine sofar.step (expect_builds _ _) fun semicolon s2 _ sofar => ?_
  exact sofar.wrap (by simp) (.plain rfl (by simp))

theorem statement_builds (serves : sub.Serves room) (fits : state.Fits (room + 1)) :
    (statement sub).Builds state := by
  unfold statement Builds
  rw [meets_bind, meets_current]
  cases current : state.cursor.peek? 0 with
  | none => exact failExpecting_stops (.nothing state) _
  | some token =>
    dsimp only
    refine nested_builds ?_
    have fits := fits.deepen
    split
    · exact nested_builds (compoundStatement_builds serves fits.deepen)
    · exact ifStatement_builds serves fits
    · exact whileStatement_builds serves fits
    · exact doStatement_builds serves fits
    · exact forStatement_builds serves fits
    · exact switchStatement_builds serves fits
    · exact caseStatement_builds serves fits
    · exact caseStatement_builds serves fits
    · exact returnStatement_builds serves fits
    · exact jumpStatement_builds rfl
    · exact jumpStatement_builds rfl
    · exact gotoStatement_builds _
    · exact pragmaLine_builds fits
    · exact directiveLine_builds fits
    · unfold Builds
      rw [meets_bind, meets_peek]
      split
      · exact labeledStatement_builds serves fits
      · exact expressionStatement_builds serves fits
    · exact expressionStatement_builds serves fits

end Rule

end OpenCLTree

import OpenCLTree.Proofs.Derivation.Block
import OpenCLTree.Proofs.Derivation.Expression

namespace OpenCLTree

namespace Rule

variable {tokens : List Token} {sub : Grammar} {state : GrammarState}

theorem ifStatement_derives (derives : sub.Derives tokens) : (ifStatement sub).Derives tokens := by
  intro state ready
  refine (Derivation.nothing ready).step expect_derives fun word _ _ sofar => ?_
  refine sofar.step (parenthesizedExpression_derives derives) fun condition _ _ sofar => ?_
  refine sofar.step derives.statement fun consequence _ _ sofar => ?_
  refine sofar.step accept_derives fun found s1 readWord withElse => ?_
  cases found with
  | none => exact withElse.wrap (by simp) rfl
  | some otherwise =>
    rw [leads_bind]
    refine (derives.statement readWord.ready).mono (fun body s2 readBody => ?_) fun _ keeps =>
      withElse.toOnward.trans keeps
    have clause : Derivation tokens _ [(Node.make .elseClause [otherwise, body]).toChild] s2 :=
      (readWord.join readBody).wrap (by simp) rfl
    exact (sofar.join clause).wrap (by simp) rfl

theorem whileStatement_derives (derives : sub.Derives tokens) : (whileStatement sub).Derives tokens := by
  intro state ready
  refine (Derivation.nothing ready).step expect_derives fun word _ _ sofar => ?_
  refine sofar.step (parenthesizedExpression_derives derives) fun condition _ _ sofar => ?_
  refine sofar.step derives.statement fun body _ _ sofar => ?_
  exact sofar.wrap (by simp) rfl

theorem doStatement_derives (derives : sub.Derives tokens) : (doStatement sub).Derives tokens := by
  intro state ready
  refine (Derivation.nothing ready).step expect_derives fun word _ _ sofar => ?_
  refine sofar.step derives.statement fun body _ _ sofar => ?_
  refine sofar.step expect_derives fun until_ _ _ sofar => ?_
  refine sofar.step (parenthesizedExpression_derives derives) fun condition _ _ sofar => ?_
  refine sofar.step expect_derives fun semicolon _ _ sofar => ?_
  exact sofar.wrap (by simp) rfl

theorem forInitializer_derives (derives : sub.Derives tokens) : (forInitializer sub).Derives tokens := by
  intro state ready
  refine (Derivation.nothing ready).step accept_derives fun found _ _ sofar => ?_
  cases found with
  | some semicolon => exact sofar
  | none =>
    dsimp only
    rw [leads_bind]
    refine atLocalDeclaration_leads ?_ fun _ => ?_
    · refine sofar.step (localDeclaration_derives derives) fun declaration _ _ sofar => ?_
      simpa using sofar
    · refine sofar.step (derives.expression _) fun value _ _ sofar => ?_
      refine sofar.step expect_derives fun semicolon _ _ sofar => ?_
      simpa using sofar

theorem optionalExpression_derives {field : Field} {closer : TokenKind} (derives : sub.Derives tokens)
    (other : field ≠ .name) : (optionalExpression sub field closer).Derives tokens := by
  intro state ready
  refine (Derivation.nothing ready).step (unlessAt_derives (only_derives (derives.expression _)
    fun _ => by simp [other])) fun value _ _ sofar => ?_
  refine sofar.step expect_derives fun token _ _ sofar => ?_
  simpa using sofar

theorem forStatement_derives (derives : sub.Derives tokens) : (forStatement sub).Derives tokens := by
  intro state ready
  refine (Derivation.nothing ready).step expect_derives fun word _ _ sofar => ?_
  refine sofar.step expect_derives fun opener s1 _ atFront => ?_
  have enter : (s1.mapScopes Scopes.enter).Ready tokens := atFront.ready.still rfl
  rw [leads_bind]
  refine (inScope_leads (fun rest after => Derivation tokens (s1.mapScopes Scopes.enter) (parts rest) after)
    atFront.ready ?_).mono ?_
    fun _ keeps => atFront.toOnward.trans keeps
  · refine (Derivation.nothing enter).step (forInitializer_derives derives) fun initializer _ _ sofar => ?_
    refine sofar.step (optionalExpression_derives derives (by decide)) fun condition _ _ sofar => ?_
    refine sofar.step (optionalExpression_derives derives (by decide)) fun update _ _ sofar => ?_
    refine sofar.step derives.statement fun body _ _ sofar => ?_
    simpa using sofar
  · rintro rest _ ⟨s2, rfl, inside⟩
    have stretch : Stretch tokens (s1.mapScopes Scopes.enter) rest s2 :=
      inside.toStretch.refield _ (by simp)
    have resolves : Node.errors (Child.nodes rest) = [] →
        Resolves false s1.scopes.enter rest s2.scopes := by
      intro free
      have known := inside.resolves (by simpa using free)
      rw [parts_children] at known
      exact known.of_tagged
    have scope : Derivation tokens state [(Node.make .forStatement _).toChild] _ :=
      .scope [word, opener] [] .forStatement rfl atFront stretch resolves
        (.nothing (stretch.inScope atFront.ready).ready)
    simpa using scope

theorem switchStatement_derives (derives : sub.Derives tokens) :
    (switchStatement sub).Derives tokens := by
  intro state ready
  refine (Derivation.nothing ready).step expect_derives fun word _ _ sofar => ?_
  refine sofar.step (parenthesizedExpression_derives derives) fun condition _ _ sofar => ?_
  refine sofar.step (compoundStatement_derives derives) fun body _ _ sofar => ?_
  exact sofar.wrap (by simp) rfl

theorem caseLabel_derives (derives : sub.Derives tokens) : (caseLabel sub).Derives tokens := by
  intro state ready
  refine (Derivation.nothing ready).step accept_derives fun found _ _ sofar => ?_
  cases found with
  | some word =>
    refine sofar.step (derives.expression _) fun value _ _ sofar => ?_
    simpa using sofar
  | none =>
    refine sofar.step expect_derives fun word _ _ sofar => ?_
    simpa using sofar

theorem returnStatement_derives (derives : sub.Derives tokens) :
    (returnStatement sub).Derives tokens := by
  intro state ready
  refine (Derivation.nothing ready).step expect_derives fun word _ _ sofar => ?_
  refine sofar.step (unlessAt_derives (only_derives (derives.expression _) fun _ => rfl))
    fun value _ _ sofar => ?_
  refine sofar.step expect_derives fun semicolon _ _ sofar => ?_
  exact sofar.wrap (by simp) rfl

theorem jumpStatement_derives {keyword : Keyword} {kind : NodeKind} (loose : kind.isLoose = true) :
    (jumpStatement keyword kind).Derives tokens := by
  intro state ready
  refine (Derivation.nothing ready).step expect_derives fun word _ _ sofar => ?_
  refine sofar.step expect_derives fun semicolon _ _ sofar => ?_
  exact sofar.wrap (by simp) loose

theorem gotoStatement_derives : gotoStatement.Derives tokens := by
  intro state ready
  refine (Derivation.nothing ready).step expect_derives fun word _ _ sofar => ?_
  refine sofar.step expect_derives fun label _ _ sofar => ?_
  refine sofar.step expect_derives fun semicolon last _ sofar => ?_
  have named : Derivation tokens state
      [word.toChild, (Node.ofToken .identifier label).toChild, semicolon.toChild] last :=
    .leafAt [word.toChild] sofar .identifier rfl
  exact named.wrap (by simp) rfl

theorem labeledStatement_derives (derives : sub.Derives tokens) :
    (labeledStatement sub).Derives tokens := by
  intro state ready
  refine (Derivation.nothing ready).step expect_derives fun label _ readLabel _ => ?_
  refine (readLabel.leaf .identifier rfl).step expect_derives fun colon _ _ sofar => ?_
  refine sofar.step derives.statement fun body _ _ sofar => ?_
  exact sofar.wrap (by simp) rfl

theorem expressionStatement_derives (derives : sub.Derives tokens) :
    (expressionStatement sub).Derives tokens := by
  intro state ready
  refine (Derivation.nothing ready).step (unlessAt_derives (only_derives (expression_derives derives)
    fun _ => rfl)) fun value _ _ sofar => ?_
  refine sofar.step expect_derives fun semicolon _ _ sofar => ?_
  exact sofar.wrap (by simp) rfl

theorem caseLabel_gives : (caseLabel sub).Gives fun label =>
    ∀ field inner, Child.node field inner ∈ label → field = some .value := by
  refine gives_bind fun found => ?_
  split
  · refine gives_bind fun value => gives_pure fun field inner member => ?_
    simp only [List.mem_cons, Token.toChild, Node.as, List.not_mem_nil, or_false] at member
    rcases member with same | same <;> cases same
    rfl
  · refine gives_bind fun word => gives_pure fun field inner member => ?_
    cases List.mem_singleton.mp member

/-- The items behind a label are items of a block. -/
theorem caseStatement_derives (derives : sub.Derives tokens) : (caseStatement sub).Derives tokens := by
  intro state ready
  refine (Derivation.nothing ready).stepWith (Derives.withFact (caseLabel_derives derives)
    caseLabel_gives ready) fun label s1 values _ sofar => ?_
  refine sofar.step expect_derives fun colon s2 _ atLabel => ?_
  have atLabel : Derivation tokens state ((label ++ [colon.toChild]).map Child.tagged) s2 := by
    simpa using atLabel
  rw [leads_bind]
  refine (blockItems_leads derives atLabel.ready).mono (fun items last inside => ?_) fun _ keeps =>
    atLabel.toOnward.trans keeps
  have stretch := (atLabel.toStretch.refield (label ++ [colon.toChild]) (by simp)).join
    inside.toStretch
  refine .node stretch rfl (Node.shaped_of_common stretch.plain rfl rfl) nofun nofun
    (fun free sort => ?_) fun _ => Node.usesNames_of_other rfl
  rw [Child.nodes_append, Node.errors_append, List.append_eq_nil_iff] at free
  have label : Resolves true state.scopes (label ++ [colon.toChild]) s2.scopes := by
    refine (atLabel.resolves (by rw [Child.nodes_tagged]; exact free.1)).of_tagged.ofValues
      fun field inner member => ?_
    rcases List.mem_append.mp member with inLabel | atColon
    · exact values field inner inLabel
    · cases List.mem_singleton.mp atColon
  exact Node.walks_of_resolves rfl rfl rfl (label.append (inside.items free.2))

theorem statement_derives (derives : sub.Derives tokens) : (statement sub).Derives tokens := by
  intro state ready
  unfold statement
  rw [leads_bind, leads_current]
  split
  · exact (Derivation.nothing ready).fails _
  · rename_i token current
    refine nested_derives (α := Node) (fun {state} ready => ?_) ready
    split
    case h_1 => exact nested_derives (compoundStatement_derives derives) ready
    case h_2 => exact ifStatement_derives derives ready
    case h_3 => exact whileStatement_derives derives ready
    case h_4 => exact doStatement_derives derives ready
    case h_5 => exact forStatement_derives derives ready
    case h_6 => exact switchStatement_derives derives ready
    case h_7 | h_8 => exact caseStatement_derives derives ready
    case h_9 => exact returnStatement_derives derives ready
    case h_10 => exact jumpStatement_derives rfl ready
    case h_11 => exact jumpStatement_derives rfl ready
    case h_12 => exact gotoStatement_derives ready
    case h_13 => exact pragmaLine_derives ready
    case h_14 => exact directiveLine_derives ready
    case h_15 =>
      rw [leads_bind, leads_peek]
      split
      · exact labeledStatement_derives derives ready
      · exact expressionStatement_derives derives ready
    case h_16 => exact expressionStatement_derives derives ready

theorem labeledStatement_gives :
    (labeledStatement sub).Gives fun node => node.kind = .labeledStatement :=
  gives_bind fun _ => gives_bind fun _ => gives_bind fun _ => gives_pure rfl

/-- A name in front of a colon is a label. -/
theorem statement_labeled (name : (state.cursor.peek? 0).map (·.kind) = some .identifier)
    (colon : (state.cursor.peek? 1).map (·.kind) = some (.punct .colon)) :
    (statement sub).Leads state (fun node _ => node.kind = .labeledStatement) fun _ => True := by
  obtain ⟨token, current, kind⟩ := Option.map_eq_some_iff.mp name
  unfold statement
  rw [leads_bind, leads_current, current]
  dsimp only
  unfold nested
  rw [leads_bind, leads_get]
  split
  · exact leads_failExpecting _ trivial
  · rw [leads_bind, leads_modify, leads_closing, kind]
    dsimp only
    rw [leads_bind, leads_peek, if_pos colon]
    exact labeledStatement_gives.leads

end Rule

end OpenCLTree

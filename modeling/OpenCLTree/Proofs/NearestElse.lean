import OpenCLTree.Proofs.Derivation.Leads
import OpenCLTree.Proofs.Reading
import OpenCLTree.Proofs.Tree.Branches
import OpenCLTree.Proofs.Yields.SourceFile

namespace OpenCLTree

/-- Whether nodes of a kind have no open tail, and are no `else` either. -/
def NodeKind.isClosed : NodeKind → Bool
  | .ifStatement | .whileStatement | .forStatement | .labeledStatement | .elseClause => false
  | _ => true

/-- Whether a statement that has been read keeps off an `else` that it does not have: if its open tail
reaches an `if` without one, none comes next. -/
structure Node.ClosedAt (state : GrammarState) (node : Node) : Prop where
  proper : node.kind ≠ .elseClause
  apart : node.LeavesOpen → (state.cursor.peek? 0).map (·.kind) ≠ some (.keyword .elseKw)

theorem Node.closedAt_of_isClosed {node : Node} (state : GrammarState)
    (closed : node.kind.isClosed = true) : node.ClosedAt state where
  proper same := by
    rw [same] at closed
    cases closed
  apart opens := by
    rcases leavesOpen_iff.mp opens with ⟨isIf, _⟩ | ⟨inner, ending, _⟩
    · rw [isIf] at closed
      cases closed
    · unfold endings at ending
      split at ending <;> simp_all [NodeKind.isClosed]

/-- The open tail of a statement that ends with another is that of the other. -/
theorem Node.ClosedAt.onward {kind : NodeKind} {children : List Child} {body : Node}
    {state : GrammarState} (atBody : body.ClosedAt state) (noIf : kind ≠ .ifStatement)
    (proper : kind ≠ .elseClause) (endings : (Node.make kind children).endings = [body]) :
    (Node.make kind children).ClosedAt state where
  proper := proper
  apart opens := by
    rcases leavesOpen_iff.mp opens with ⟨isIf, _⟩ | ⟨inner, ending, opensInner⟩
    · exact absurd isIf noIf
    · rw [endings, List.mem_singleton] at ending
      exact atBody.apart (ending ▸ opensInner)

namespace Rule

variable {state : GrammarState}

/-- Taking a token of a kind tells whether it was the current one. -/
theorem accept_leads_kind (kind : TokenKind) :
    (accept kind).Leads state (fun found after =>
      match found with
      | some _ => (state.cursor.peek? 0).map (·.kind) = some kind
      | none => after = state ∧ (state.cursor.peek? 0).map (·.kind) ≠ some kind) fun _ => True := by
  unfold accept
  rw [leads_bind, leads_current]
  cases state.cursor.peek? 0 with
  | none => exact ⟨rfl, nofun⟩
  | some token =>
    dsimp only
    split
    · rename_i same
      exact leads_next fun _ _ => congrArg some same
    · rename_i other
      exact ⟨rfl, fun same => other (Option.some.inj same)⟩

/-- Whether the statements that a rule reads keep off an `else` that they do not have. -/
def Closes (rule : Rule Node) : Prop :=
  ∀ state, rule.Leads state (fun node after => node.ClosedAt after) fun _ => True

theorem Gives.closes {rule : Rule Node} (gives : rule.Gives fun node => node.kind.isClosed = true) :
    rule.Closes :=
  fun _ => gives.leads.mono (fun _ after closed => Node.closedAt_of_isClosed after closed)
    fun _ _ => trivial

/-- The depth of nesting does not change what comes next. -/
theorem Closes.nested {rule : Rule Node} (closes : rule.Closes) : (nested rule).Closes := by
  intro state
  unfold Rule.nested
  rw [leads_bind, leads_get]
  split
  · exact leads_failExpecting _ trivial
  · rw [leads_bind, leads_modify, leads_closing]
    exact (closes _).mono (fun _ _ known => ⟨known.proper, known.apart⟩) fun _ _ => trivial

end Rule

open Rule

variable {sub : Grammar}

theorem parenthesizedExpression_kind :
    (parenthesizedExpression sub).Gives fun node => node.kind = .parenthesizedExpression :=
  gives_bind fun _ => gives_bind fun _ => gives_bind fun _ => gives_pure rfl

theorem pragmaLine_isClosed : pragmaLine.Gives fun node => node.kind.isClosed = true := by
  refine gives_bind fun marker => gives_bind fun line => gives_pure ?_
  unfold pragmaNode
  split <;> try split
  all_goals rfl

theorem compoundStatement_isClosed :
    (compoundStatement sub).Gives fun node => node.kind.isClosed = true :=
  gives_bind fun _ => gives_bind fun _ => gives_bind fun _ => gives_pure rfl

theorem doStatement_isClosed : (doStatement sub).Gives fun node => node.kind.isClosed = true :=
  gives_bind fun _ => gives_bind fun _ => gives_bind fun _ => gives_bind fun _ => gives_bind fun _ =>
    gives_pure rfl

theorem switchStatement_isClosed :
    (switchStatement sub).Gives fun node => node.kind.isClosed = true :=
  gives_bind fun _ => gives_bind fun _ => gives_bind fun _ => gives_pure rfl

theorem caseStatement_isClosed : (caseStatement sub).Gives fun node => node.kind.isClosed = true :=
  gives_bind fun _ => gives_bind fun _ => gives_bind fun _ => gives_pure rfl

theorem returnStatement_isClosed :
    (returnStatement sub).Gives fun node => node.kind.isClosed = true :=
  gives_bind fun _ => gives_bind fun _ => gives_bind fun _ => gives_pure rfl

theorem gotoStatement_isClosed : gotoStatement.Gives fun node => node.kind.isClosed = true :=
  gives_bind fun _ => gives_bind fun _ => gives_bind fun _ => gives_pure rfl

theorem directiveLine_isClosed : directiveLine.Gives fun node => node.kind.isClosed = true :=
  gives_bind fun _ => gives_bind fun _ => gives_pure rfl

theorem jumpStatement_isClosed (keyword : Keyword) {kind : NodeKind} (closed : kind.isClosed = true) :
    (jumpStatement keyword kind).Gives fun node => node.kind.isClosed = true :=
  gives_bind fun _ => gives_bind fun _ => gives_pure closed

theorem expressionStatement_isClosed :
    (expressionStatement sub).Gives fun node => node.kind.isClosed = true :=
  gives_bind fun _ => gives_bind fun _ => gives_pure rfl

section Closing

variable (closes : sub.statement.Closes)

include closes

/-- The rule for `if` takes an `else` that comes next, so that none is left to an `if` around it. -/
theorem ifStatement_leads (state : GrammarState) :
    (ifStatement sub).Leads state (fun node after => node.ElseIsNearest ∧ node.ClosedAt after)
      fun _ => True := by
  refine leads_next fun word _ => ?_
  refine parenthesizedExpression_kind.thenLeads fun condition _ atCondition => ?_
  have proper : NodeKind.ifStatement ≠ .elseClause := by decide
  rw [leads_bind]
  refine (closes _).mono (fun consequence middle atConsequence => ?_) fun _ _ => trivial
  refine (leads_bind _ _).mpr
    ((accept_leads_kind _).mono (fun found last known => ?_) fun _ _ => trivial)
  cases found with
  | none =>
    obtain ⟨rfl, other⟩ := known
    have lacks : (Node.make .ifStatement [word.toChild, condition.as .condition,
        consequence.as .consequence]).hasElse = false := by
      simp [Node.hasElse, Node.childNodes, Child.nodes, Token.toChild, Node.as, atCondition,
        atConsequence.proper]
    refine ⟨fun has => ?_, proper, fun _ => other⟩
    cases lacks.symm.trans has
  | some otherwise =>
    have shut : ¬ consequence.LeavesOpen := fun opens => atConsequence.apart opens known
    rw [leads_bind]
    refine (closes _).mono (fun body after atBody => ?_) fun _ _ => trivial
    refine ⟨fun _ => ⟨consequence, rfl, shut⟩, proper, fun opens => ?_⟩
    rcases Node.leavesOpen_iff.mp opens with ⟨_, lacks⟩ | ⟨inner, ending, opensInner⟩
    · simp [Node.hasElse, Node.childNodes, Child.nodes, Token.toChild, Node.as] at lacks
    · have among : inner ∈ [consequence, body] := ending
      rcases List.mem_cons.mp among with rfl | last
      · exact absurd opensInner shut
      · exact atBody.apart (List.mem_singleton.mp last ▸ opensInner)

theorem ifStatement_gives : (ifStatement sub).Gives Node.ElseIsNearest := by
  intro state node after run
  have leads := ifStatement_leads closes state
  rw [Leads, run] at leads
  exact leads.1

theorem ifStatement_closes : (ifStatement sub).Closes :=
  fun state => (ifStatement_leads closes state).mono (fun _ _ known => known.2) fun _ _ => trivial

theorem whileStatement_closes : (whileStatement sub).Closes := by
  refine fun state => leads_next fun word _ => leads_next fun condition _ => ?_
  rw [leads_bind]
  exact (closes _).mono (fun body after atBody => atBody.onward (by decide) (by decide) rfl) fun _ _ => trivial

theorem labeledStatement_closes : (labeledStatement sub).Closes := by
  refine fun state => leads_next fun label _ => leads_next fun colon _ => ?_
  rw [leads_bind]
  exact (closes _).mono (fun body after atBody => atBody.onward (by decide) (by decide) rfl) fun _ _ => trivial

variable {branch : Node → Prop} (sound : sub.Sound branch)

include sound

/-- Leaving the scope of a `for` does not change what comes next. Nothing in front of its body is
taken for the body. -/
theorem forStatement_closes : (forStatement sub).Closes := by
  refine fun state => leads_next fun word _ => leads_next fun opener _ => ?_
  unfold inScope
  rw [leads_bind, leads_bind, mapScopes, leads_modify, leads_closing]
  refine (forInitializer_yields sound).toGives.thenLeads fun initializer _ one => ?_
  refine (optionalExpression_yields sound .condition _).toGives.thenLeads fun condition _ two => ?_
  refine (optionalExpression_yields sound .update _).toGives.thenLeads fun update _ three => ?_
  rw [leads_bind]
  refine (closes _).mono (fun body after atBody => ?_) fun _ _ => trivial
  have outside : body.ClosedAt { after with scopes := after.scopes.leave } :=
    ⟨atBody.proper, atBody.apart⟩
  refine outside.onward (by decide) (by decide) ?_
  have bodies : (initializer ++ condition ++ update ++ [body.as .body]).filter
      (·.field? == some .body) = [body.as .body] := by
    rw [List.filter_append, List.filter_append, List.filter_append, one.filter_eq_nil (by decide),
      two.filter_eq_nil (by decide), three.filter_eq_nil (by decide)]
    rfl
  have first : (Node.make .forStatement (word.toChild :: opener.toChild ::
      (initializer ++ condition ++ update ++ [body.as .body]))).fieldNode? .body = some body :=
    congrArg (fun found => found.head?.bind Child.node?) bodies
  exact congrArg Option.toList first

theorem statement_closes : (statement sub).Closes := by
  intro state
  unfold statement
  rw [leads_bind, leads_current]
  split
  · exact leads_failExpecting _ trivial
  · rename_i token _
    refine Closes.nested (fun state => ?_) state
    split
    case h_1 => exact compoundStatement_isClosed.closes.nested state
    case h_2 => exact ifStatement_closes closes state
    case h_3 => exact whileStatement_closes closes state
    case h_4 => exact doStatement_isClosed.closes state
    case h_5 => exact forStatement_closes closes sound state
    case h_6 => exact switchStatement_isClosed.closes state
    case h_7 | h_8 => exact caseStatement_isClosed.closes state
    case h_9 => exact returnStatement_isClosed.closes state
    case h_10 | h_11 => exact (jumpStatement_isClosed _ rfl).closes state
    case h_12 => exact gotoStatement_isClosed.closes state
    case h_13 => exact pragmaLine_isClosed.closes state
    case h_14 => exact directiveLine_isClosed.closes state
    case h_15 =>
      rw [leads_bind, leads_peek]
      split
      · exact labeledStatement_closes closes state
      · exact expressionStatement_isClosed.closes state
    case h_16 => exact expressionStatement_isClosed.closes state

end Closing

/-- By induction on the room there is for calls. -/
theorem Grammar.ofDepth_closes (depth : Nat) : (ofDepth depth).statement.Closes := by
  induction depth with
  | zero => exact fun _ => leads_exhaust
  | succ depth ih => exact statement_closes ih (ofDepth_sound depth)

theorem Reading.ofTokens_branches (tokens : List Token) :
    ∀ item ∈ (ofTokens tokens).items, item.CataloguedWith Node.ElseIsNearest :=
  (ofTokens_soundWith (fun depth => ifStatement_gives (Grammar.ofDepth_closes depth)) tokens).1

/-- An `else` belongs to the nearest `if` that could have it: along the open tail of the consequence
of an `if` with an `else` there is no `if` without one. -/
theorem parse_bindsElse (source : String) : (parse source).tree.BindsElse := by
  intro node member isIf
  rw [parse_root, Node.descendants_mk, Child.nodes_toChild, Node.preorder_mapSpan] at member
  rcases List.mem_cons.mp member with rfl | below
  · cases isIf
  · obtain ⟨inner, read, rfl⟩ := List.mem_map.mp below
    obtain ⟨item, listed, under⟩ := Node.exists_of_mem_preorder read
    rw [Node.kind_mapSpan] at isIf
    exact ((Reading.ofTokens_branches _ item listed inner under).2 isIf).mapSpan

end OpenCLTree

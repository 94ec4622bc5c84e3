import OpenCLTree.Proofs.Derivation.Item
import OpenCLTree.Proofs.Lexical.Stream
import OpenCLTree.Proofs.Reading

namespace OpenCLTree

namespace Grammar

variable {tokens : List Token} {sub : Grammar}

theorem derives_exhausted : exhausted.Derives tokens where
  expression _ _ _ := Rule.leads_exhaust
  castExpression _ := Rule.leads_exhaust
  unaryExpression _ := Rule.leads_exhaust
  initializer _ := Rule.leads_exhaust
  typeSpecifier _ := Rule.leads_exhaust
  declarationSpecifiers _ := Rule.leads_exhaust
  declarator _ _ _ := Rule.leads_exhaust
  declarators _ _ _ _ run := by cases run
  statement _ := Rule.leads_exhaust
  labeled _ _ := Rule.leads_exhaust

theorem derives_calling (derives : sub.Derives tokens) : sub.calling.Derives tokens where
  expression _ := Rule.expression_derives derives
  castExpression := Rule.castExpression_derives derives
  unaryExpression := Rule.unaryExpression_derives derives
  initializer := Rule.initializer_derives derives
  typeSpecifier := Rule.typeSpecifier_derives derives
  declarationSpecifiers := Rule.declarationSpecifiers_derives derives
  declarator _ := Rule.declarator_derives derives
  declarators _ := Rule.declarator_gives derives.declarators
  statement := Rule.statement_derives derives
  labeled name colon := Rule.statement_labeled name colon

theorem derives_ofDepth (depth : Nat) : (ofDepth depth).Derives tokens := by
  induction depth with
  | zero => exact derives_exhausted
  | succ depth ih => exact derives_calling ih

end Grammar

theorem GrammarState.ready_ofTokens {tokens : List Token} (lexed : ∀ token ∈ tokens, token.kind ≠ .swizzle) :
    (ofTokens tokens).Ready tokens where
  mode := rfl
  place := rfl
  lexed := lexed

/-- The items and errors of a token stream. -/
theorem Reading.ofTokens_items {tokens : List Token} (lexed : ∀ token ∈ tokens, token.kind ≠ .swizzle) :
    ∃ last, Items tokens (.ofTokens tokens) (ofTokens tokens).items last ∧
      (ofTokens tokens).errors = last.reports := by
  have leads := Rule.sourceItems_leads (Grammar.derives_ofDepth tokens.length)
    (GrammarState.ready_ofTokens lexed)
  obtain ⟨last, run, errors⟩ := ofTokens_run tokens
  exact ⟨last, leads.of_done run, errors⟩

end OpenCLTree

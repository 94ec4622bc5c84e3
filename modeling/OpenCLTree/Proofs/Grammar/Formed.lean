import OpenCLTree.Proofs.Grammar.Reads

namespace OpenCLTree

/-- Whether the parts of a node bind as they must, its qualifiers make up a set, and its declarators
are as it asks. -/
structure Node.IsFormed (reports : List ParseError) (node : Node) : Prop where
  leveled : node.IsLeveled
  qualifies : node.kind.holdsQualifiers = true → ∃ set, Qualifies reports node.children set
  declarators : node.HasDeclarators

namespace Node.IsFormed

variable {reports later : List ParseError} {node : Node}

theorem ofOther (loose : node.kind.bindsParts = false) (free : node.kind.holdsQualifiers = false)
    (bare : node.kind.declaratorModes = []) : node.IsFormed reports where
  leveled := .ofOther loose
  qualifies holds := by
    rw [free] at holds
    cases holds
  declarators := .ofOther bare

theorem mono (formed : node.IsFormed reports) (kept : reports ⊆ later) : node.IsFormed later where
  leveled := formed.leveled
  qualifies holds := (formed.qualifies holds).imp fun _ qualifies => qualifies.mono kept
  declarators := formed.declarators

theorem mapSpan (formed : node.IsFormed reports) (place : Span → Span) :
    (node.mapSpan place).IsFormed (reports.map (·.mapSpan place)) where
  leveled := formed.leveled.mapSpan place
  qualifies holds := by
    rw [kind_mapSpan] at holds
    obtain ⟨set, qualifies⟩ := formed.qualifies holds
    rw [children_mapSpan]
    exact ⟨_, qualifies.mapSpan place⟩
  declarators := formed.declarators.mapSpan

end Node.IsFormed

/-- Every node that has been read is formed as it must. -/
theorem ReadsWith.formed {remarks : Prop} {first last : GrammarState} {children : List Child}
    (reads : ReadsWith remarks first children last) :
    ∀ node ∈ Node.preorder (Child.nodes children), node.IsFormed last.reports := by
  induction reads with
  | nothing | declared | remarked | token =>
    change ∀ node ∈ Node.preorder [], node.IsFormed _
    rw [Node.preorder_nil]
    exact List.forall_mem_nil _
  | join _ later ihFront ihBack =>
    rw [Child.nodes_append, Node.preorder_append]
    exact List.forall_mem_append.mpr
      ⟨fun node member => (ihFront node member).mono later.reports_subset, ihBack⟩
  | node composes _ ih =>
    rw [Child.nodes_bare] at ih
    rw [Node.toChild, Child.nodes, Child.nodes, ← Node.descendants, Node.descendants_make]
    exact List.forall_mem_cons.mpr ⟨⟨composes.leveled, composes.qualifies, composes.declarators⟩, ih⟩
  | duplicate | recovered =>
    intro node member
    simp only [Node.toChild, Node.ofToken, Token.toChild, Child.nodes, Node.preorder_cons,
      Node.descendants_make, Child.nodes_tokens, Node.preorder_nil, List.append_nil,
      List.mem_singleton] at member
    exact .ofOther (by rw [member]; rfl) (by rw [member]; rfl) (by rw [member]; rfl)
  | inScope _ ih | deeper _ ih => exact ih

end OpenCLTree

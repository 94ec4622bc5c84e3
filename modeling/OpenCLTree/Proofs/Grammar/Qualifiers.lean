import OpenCLTree.Proofs.Grammar.Kernel
import OpenCLTree.Proofs.Tree.MapSpan

namespace OpenCLTree

/-- A node of a qualifier kind holds one token, of a qualifier of that kind. -/
def Node.IsQualified (node : Node) : Prop :=
  node.kind.isQualifier = true → ∃ (qualifier : Qualifier) (token : Token),
    token.kind = .qualifier qualifier ∧ node.kind = qualifier.nodeKind ∧
      node.children = [token.toChild]

theorem Node.IsQualified.mapSpan {node : Node} (qualified : node.IsQualified)
    (place : Span → Span) : (node.mapSpan place).IsQualified := by
  intro isQualifier
  rw [kind_mapSpan] at isQualifier ⊢
  obtain ⟨qualifier, token, kind, same, children⟩ := qualified isQualifier
  refine ⟨qualifier, token.mapSpan place, kind, same, ?_⟩
  rw [children_mapSpan, children]
  rfl

theorem ReadsWith.qualified {remarks : Prop} {first last : GrammarState} {children : List Child}
    (reads : ReadsWith remarks first children last) :
    ∀ node ∈ Node.preorder (Child.nodes children), node.IsQualified := by
  induction reads with
  | nothing | declared | remarked | token =>
    change ∀ node ∈ Node.preorder [], node.IsQualified
    rw [Node.preorder_nil]
    exact List.forall_mem_nil _
  | join _ _ ihFront ihBack =>
    rw [Child.nodes_append, Node.preorder_append]
    exact List.forall_mem_append.mpr ⟨ihFront, ihBack⟩
  | node composes _ ih =>
    rw [Child.nodes_bare] at ih
    rw [Node.toChild, Child.nodes, Child.nodes, ← Node.descendants, Node.descendants_make]
    refine List.forall_mem_cons.mpr ⟨?_, ih⟩
    exact composes.qualifier
  | duplicate | recovered =>
    intro node member
    simp only [Node.toChild, Node.ofToken, Token.toChild, Child.nodes, Node.preorder_cons,
      Node.descendants_make, Child.nodes_tokens, Node.preorder_nil, List.append_nil,
      List.mem_singleton] at member
    intro isQualifier
    rw [member, Node.kind_make] at isQualifier
    cases isQualifier
  | inScope _ ih | deeper _ ih => exact ih

theorem Qualifier.category_eq_kernel {qualifier : Qualifier} :
    qualifier.category = .kernel ↔ qualifier = .kernel := by
  cases qualifier <;> decide

namespace QualifierSet

/-- Only a kernel qualifier keeps out a second one. -/
theorem contains_kernel_insert (set : QualifierSet) (qualifier : Qualifier) (span : Span) :
    ((set.insert qualifier span).toOption.getD set).contains .kernel = true ↔
      set.contains .kernel = true ∨ qualifier = .kernel := by
  cases inserted : set.insert qualifier span with
  | ok larger => exact isKernel_insert inserted
  | error earlier =>
    refine ⟨Or.inl, fun found => found.elim id ?_⟩
    rintro rfl
    unfold insert at inserted
    split at inserted
    · rename_i entry atEntry
      have member := List.mem_of_find?_eq_some atEntry
      have kernel := List.find?_some atEntry
      have same : entry.qualifier = .kernel :=
        Qualifier.category_eq_kernel.mp (by simpa [Qualifier.category] using kernel)
      exact List.any_eq_true.mpr ⟨entry, member, by simp [same]⟩
    · cases inserted

theorem contains_kernel_foldl (entries : List QualifierEntry) (set : QualifierSet) :
    (entries.foldl (fun set entry => (set.insert entry.qualifier entry.span).toOption.getD set)
      set).contains .kernel = true ↔
      set.contains .kernel = true ∨ ∃ entry ∈ entries, entry.qualifier = .kernel := by
  induction entries generalizing set with
  | nil => simp
  | cons entry rest ih =>
    simp only [List.foldl_cons, ih, contains_kernel_insert, List.mem_cons, exists_eq_or_imp, or_assoc]

end QualifierSet

namespace Node

theorem qualifierEntry?_kernel {node : Node} (qualified : node.IsQualified) :
    (∃ entry, node.qualifierEntry? = some entry ∧ entry.qualifier = .kernel) ↔
      node.kind = .kernelQualifier := by
  unfold qualifierEntry?
  split
  · rename_i isQualifier
    obtain ⟨qualifier, ⟨_, text, span, newline⟩, rfl, kind, children⟩ := qualified isQualifier
    simp [childTokens, children, Token.toChild, Child.tokens, kind,
      Qualifier.nodeKind_eq_kernelQualifier]
  · rename_i other
    refine iff_of_false (by simp) fun kernel => other ?_
    rw [kernel]
    rfl

/-- The set of qualifiers of a node tells whether there is a kernel qualifier below it. -/
theorem qualifierSet_contains_kernel {node : Node}
    (qualified : ∀ inner ∈ node.childNodes, inner.IsQualified) :
    node.qualifierSet.contains .kernel = true ↔ Child.HasKernel node.children := by
  rw [qualifierSet, QualifierSet.contains_kernel_foldl]
  constructor
  · rintro (found | ⟨entry, member, kernel⟩)
    · cases found
    · obtain ⟨inner, below, atEntry⟩ := List.mem_filterMap.mp member
      exact ⟨inner, below, (qualifierEntry?_kernel (qualified inner below)).mp ⟨entry, atEntry, kernel⟩⟩
  · rintro ⟨inner, below, kind⟩
    obtain ⟨entry, atEntry, kernel⟩ := (qualifierEntry?_kernel (qualified inner below)).mpr kind
    exact .inr ⟨entry, List.mem_filterMap.mpr ⟨inner, below, atEntry⟩, kernel⟩

end Node

end OpenCLTree

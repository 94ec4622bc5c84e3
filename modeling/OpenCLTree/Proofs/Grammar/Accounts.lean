import OpenCLTree.Proofs.Grammar.SourceFile
import OpenCLTree.Proofs.Tree.MapSpan

namespace OpenCLTree

/-- The error nodes among some trees and below them. -/
def Node.errors (nodes : List Node) : List Node :=
  (preorder nodes).filter (·.kind == .error)

namespace Node

theorem errors_append (front back : List Node) :
    errors (front ++ back) = errors front ++ errors back := by
  rw [errors, preorder_append, List.filter_append, errors, errors]

theorem errors_nil : errors [] = [] := by
  rw [errors, preorder_nil, List.filter_nil]

theorem errors_make {kind : NodeKind} {children : List Child} (proper : kind ≠ .error) :
    errors [make kind children] = errors (Child.nodes children) := by
  rw [errors, ← descendants, descendants_make, List.filter_cons_of_neg (by simpa using proper), errors]

theorem errors_makeError (children : List Child) :
    errors [make .error children] = make .error children :: errors (Child.nodes children) := by
  rw [errors, ← descendants, descendants_make, List.filter_cons_of_pos (by simp), errors]

theorem errors_ne_nil {node : Node} (isError : node.kind = .error) : errors [node] ≠ [] :=
  List.ne_nil_of_mem <| List.mem_filter.mpr
    ⟨mem_preorder_self (List.mem_singleton_self node), by simpa using isError⟩

end Node

namespace ReadsWith

variable {remarks : Prop} {first last : GrammarState} {children : List Child}

/-- There is at least one new report for every error node read. -/
theorem errors_le (reads : ReadsWith remarks first children last) :
    first.reports.length + (Node.errors (Child.nodes children)).length ≤ last.reports.length := by
  induction reads with
  | nothing | declared | token =>
    simp [Child.nodes, Token.toChild, Node.errors_nil, GrammarState.pass, GrammarState.mapScopes]
  | join _ _ ihFront ihBack =>
    rw [Child.nodes_append, Node.errors_append, List.length_append]
    omega
  | node composes _ ih =>
    rw [Child.nodes_bare] at ih
    simpa only [Node.toChild, Child.nodes, Node.errors_make composes.proper] using ih
  | duplicate _ ih =>
    simp only [Node.toChild, Node.ofToken, Child.nodes, Node.errors_makeError, Token.toChild,
      Node.errors_nil, List.length_cons, List.length_nil,
      GrammarState.length_reports_report] at ih ⊢
    omega
  | recovered _ _ _ _ ihTaken ihSkipped =>
    simp only [Child.nodes_tokens, Node.errors_nil, List.length_nil,
      GrammarState.length_reports_report] at ihSkipped
    simp only [Node.toChild, Child.nodes, Node.errors_makeError, Child.nodes_tokens,
      Node.errors_nil, List.length_cons, List.length_nil]
    omega
  | inScope _ ih | deeper _ ih => exact ih
  | remarked =>
    simp [Child.nodes, Node.errors_nil]

/-- Without remarks there is no report unless there is an error node. -/
theorem reports_eq (reads : Reads first children last)
    (proper : Node.errors (Child.nodes children) = []) : last.reports = first.reports := by
  induction reads with
  | nothing | declared | token => rfl
  | join _ _ ihFront ihBack =>
    rw [Child.nodes_append, Node.errors_append, List.append_eq_nil_iff] at proper
    rw [ihBack proper.2, ihFront proper.1]
  | node composes _ ih =>
    refine ih ?_
    simpa only [Node.toChild, Child.nodes, Node.errors_make composes.proper, Child.nodes_bare]
      using proper
  | duplicate | recovered =>
    simp [Node.toChild, Node.ofToken, Child.nodes, Node.errors_makeError] at proper
  | inScope _ ih | deeper _ ih => exact ih proper
  | remarked allowed => exact allowed.elim

end ReadsWith

namespace ReadsItems

variable {first last : GrammarState} {items : List Node}

theorem errors_le (read : ReadsItems first items last) :
    first.reports.length + (Node.errors items).length ≤ last.reports.length := by
  simpa only [Child.nodes_toChild] using read.reads.errors_le

theorem kernels_of_reports_eq (read : ReadsItems first items last)
    (quiet : last.reports.length ≤ first.reports.length) :
    ∀ item ∈ items, Child.HasKernel item.children → item.kind = .kernelFunctionDefinition := by
  induction read with
  | nothing => exact List.forall_mem_nil _
  | item read outcome ih =>
    have before := read.errors_le
    have after := outcome.reads.errors_le
    refine List.forall_mem_append.mpr ⟨ih (by omega), List.forall_mem_singleton.mpr ?_⟩
    rcases outcome with ⟨_, definition⟩ | ⟨_, reported, _⟩
    · exact definition
    · omega

theorem reports_eq_of_proper (read : ReadsItems first items last) (proper : Node.errors items = [])
    (kernels : ∀ item ∈ items, Child.HasKernel item.children →
      item.kind = .kernelFunctionDefinition) : last.reports = first.reports := by
  induction read with
  | nothing => rfl
  | @item items node middle last _ outcome ih =>
    rw [Node.errors_append, List.append_eq_nil_iff] at proper
    obtain ⟨before, here⟩ := List.forall_mem_append.mp kernels
    rw [← ih proper.1 before]
    rcases outcome with ⟨reads, _⟩ | ⟨_, _, isError | ⟨isDeclaration, kernel⟩⟩
    · exact reads.reports_eq proper.2
    · exact absurd proper.2 (Node.errors_ne_nil isError)
    · cases isDeclaration.symm.trans (here node (List.mem_singleton_self _) kernel)

/-- Nothing is reported while some items are read if and only if there is no error among them
and no kernel but in a definition. -/
theorem reports_eq_iff (read : ReadsItems first items last) :
    last.reports = first.reports ↔ Node.errors items = [] ∧
      ∀ item ∈ items, Child.HasKernel item.children → item.kind = .kernelFunctionDefinition := by
  constructor
  · intro quiet
    have counted := read.errors_le
    rw [quiet] at counted
    exact ⟨List.length_eq_zero_iff.mp (by omega), read.kernels_of_reports_eq (Nat.le_of_eq (congrArg _ quiet))⟩
  · rintro ⟨proper, kernels⟩
    exact read.reports_eq_of_proper proper kernels

end ReadsItems

end OpenCLTree

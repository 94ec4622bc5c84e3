import OpenCLTree.Proofs.Grammar.Accounts
import OpenCLTree.Proofs.Grammar.Qualifiers
import OpenCLTree.Proofs.Reading
import OpenCLTree.Proofs.Sorting

namespace OpenCLTree

variable {source : String}

theorem ParseError.kind_mapSpan (place : Span → Span) (error : ParseError) :
    (error.mapSpan place).kind = error.kind := by
  cases error <;> rfl

theorem ParseError.message_mapSpan (place : Span → Span) (error : ParseError) :
    (error.mapSpan place).message = error.message := by
  cases error <;> rfl

theorem Child.hasKernel_mapSpan (place : Span → Span) (children : List Child) :
    HasKernel (Node.mapSpanOfChildren place children) ↔ HasKernel children := by
  unfold HasKernel
  rw [Node.nodes_mapSpanOfChildren]
  constructor
  · rintro ⟨node, member, kind⟩
    obtain ⟨inner, below, rfl⟩ := List.mem_map.mp member
    exact ⟨inner, below, by rwa [Node.kind_mapSpan] at kind⟩
  · rintro ⟨inner, below, kind⟩
    exact ⟨inner.mapSpan place, List.mem_map_of_mem below, by rwa [Node.kind_mapSpan]⟩

theorem Node.errors_mapSpan (place : Span → Span) (nodes : List Node) :
    errors (nodes.map (·.mapSpan place)) = (errors nodes).map (·.mapSpan place) := by
  simp [errors, preorder_mapSpan, List.filter_map, Function.comp_def]

theorem grammarErrors_grammatical (source : String) :
    ∀ error ∈ grammarErrors source, error.IsGrammatical := by
  refine List.forall_mem_map.mpr fun error member => ?_
  unfold ParseError.IsGrammatical
  rw [ParseError.kind_mapSpan]
  exact Reading.errors_grammatical _ error member

/-- No error of a source is an ambiguous cast. -/
theorem filter_ambiguousCast (source : String) :
    ((tokenize source).2.map ParseError.lexical ++ grammarErrors source).filter
      (·.kind != .ambiguousCast) = (tokenize source).2.map .lexical ++ grammarErrors source := by
  refine List.filter_eq_self.mpr (List.forall_mem_append.mpr ⟨?_, fun error member => ?_⟩)
  · simp [ParseError.kind]
  · simpa using (grammarErrors_grammatical source error member).1

/-- The errors that are none of the tokens are those of the grammar. -/
theorem filter_lexical (source : String) :
    ((tokenize source).2.map ParseError.lexical ++ grammarErrors source).filter
      (·.kind != .lexical) = grammarErrors source := by
  have lexical : ((tokenize source).2.map ParseError.lexical).filter (·.kind != .lexical) = [] := by
    simp [ParseError.kind]
  rw [List.filter_append, lexical, List.nil_append, List.filter_eq_self]
  intro error member
  simpa using (grammarErrors_grammatical source error member).2

theorem Diagnostic.start_trans (a b c : Diagnostic)
    (ab : decide (a.span.start ≤ b.span.start) = true)
    (bc : decide (b.span.start ≤ c.span.start) = true) :
    decide (a.span.start ≤ c.span.start) = true := by
  simp only [decide_eq_true_eq] at ab bc ⊢
  exact Nat.le_trans ab bc

theorem Diagnostic.start_total (a b : Diagnostic) :
    (decide (a.span.start ≤ b.span.start) || decide (b.span.start ≤ a.span.start)) = true := by
  simpa using Nat.le_total _ _

/-- The diagnostics for some of the errors are those errors, ordered by where they lie. -/
theorem filter_diagnostics_error (source : String) (keep : ParseError → Bool) :
    (parse source).diagnostics.filter (fun diagnostic => keep diagnostic.error) =
      ((((tokenize source).2.map ParseError.lexical ++ grammarErrors source).filter keep).map
        fun error : ParseError => Diagnostic.mk error
          ((LineIndex.ofText source.toList).position source.toList error.span.start)).mergeSort
        fun one two => one.span.start ≤ two.span.start := by
  rw [parse_diagnostics, Diagnostic.ofErrors, filter_ambiguousCast,
    filter_mergeSort Diagnostic.start_trans Diagnostic.start_total, List.filter_map]
  rfl

/-- The diagnostics of a source in the order in which its errors were found. -/
theorem diagnostics_perm (source : String) :
    ((parse source).diagnostics.map (·.error)).Perm
      ((tokenize source).2.map .lexical ++ grammarErrors source) := by
  rw [parse_diagnostics, Diagnostic.ofErrors, filter_ambiguousCast]
  refine ((List.mergeSort_perm _ _).map _).trans (.of_eq ?_)
  rw [List.map_map]
  exact List.map_id _

theorem findAll_error (source : String) :
    (parse source).tree.root.findAll .error =
      (Node.errors (Reading.ofTokens (tokenize source).1).items).map
        (·.mapSpan (Span.placeIn (tokenize source).1 (byteLength source.toList))) := by
  rw [parse_root, Node.findAll, Node.descendants_mk, Child.nodes_toChild,
    List.filter_cons_of_neg (by simp [Node.kind]), ← Node.errors, Node.errors_mapSpan]

theorem length_filter_diagnostics (source : String) :
    ((parse source).diagnostics.filter (·.kind != .lexical)).length =
      (Reading.ofTokens (tokenize source).1).errors.length := by
  have lengths := ((diagnostics_perm source).filter (·.kind != .lexical)).length_eq
  rwa [filter_lexical, List.filter_map, List.length_map, grammarErrors, List.length_map] at lengths

theorem diagnostics_eq_nil (source : String) :
    (parse source).diagnostics = [] ↔
      (tokenize source).2 = [] ∧ (Reading.ofTokens (tokenize source).1).errors = [] := by
  have lengths := (diagnostics_perm source).length_eq
  simp only [grammarErrors, List.length_map, List.length_append] at lengths
  rw [← List.length_eq_zero_iff, lengths, Nat.add_eq_zero_iff, List.length_eq_zero_iff,
    List.length_eq_zero_iff]

theorem kernel_items (source : String) :
    (∀ item ∈ (parse source).tree.items, item.qualifierSet.contains .kernel = true →
        item.kind = .kernelFunctionDefinition) ↔
      ∀ item ∈ (Reading.ofTokens (tokenize source).1).items, Child.HasKernel item.children →
        item.kind = .kernelFunctionDefinition := by
  obtain ⟨last, read, _, _⟩ := Reading.ofTokens_reads (tokenize source).1
  have qualified := read.reads.qualified
  rw [Child.nodes_toChild] at qualified
  rw [Tree.items, parse_root]
  simp only [Node.childNodes_mk, Child.nodes_toChild, List.forall_mem_map, Node.kind_mapSpan]
  refine forall₂_congr fun item member => imp_congr_left ?_
  rw [Node.qualifierSet_contains_kernel, Node.children_mapSpan, Child.hasKernel_mapSpan]
  intro inner below
  rw [Node.childNodes, Node.children_mapSpan, Node.nodes_mapSpanOfChildren] at below
  obtain ⟨node, inItem, rfl⟩ := List.mem_map.mp below
  exact (qualified node (Node.mem_preorder_child member inItem)).mapSpan _

/-- The diagnostics are empty if and only if the tokens are in order, no node of the tree is an
error and no item but a definition is a kernel; and there is a diagnostic of the grammar for
every error node. -/
theorem diagnostics_account (source : String) :
    ((parse source).diagnostics = [] ↔
      (tokenize source).2 = [] ∧
      (∀ node ∈ (parse source).tree.root.descendants, node.kind ≠ .error) ∧
      ∀ item ∈ (parse source).tree.items, item.qualifierSet.contains .kernel = true →
        item.kind = .kernelFunctionDefinition) ∧
    ((parse source).tree.root.findAll .error).length ≤
      ((parse source).diagnostics.filter (·.kind != .lexical)).length := by
  obtain ⟨last, read, _, errors⟩ := Reading.ofTokens_reads (tokenize source).1
  have found : (∀ node ∈ (parse source).tree.root.descendants, node.kind ≠ .error) ↔
      Node.errors (Reading.ofTokens (tokenize source).1).items = [] := by
    rw [← List.map_eq_nil_iff, ← findAll_error, Node.findAll, List.filter_eq_nil_iff]
    simp
  have counted := read.errors_le
  constructor
  · rw [diagnostics_eq_nil, errors, found, kernel_items, ← read.reports_eq_iff]
    rfl
  · rw [findAll_error, List.length_map, length_filter_diagnostics, errors]
    exact Nat.le_of_add_left_le counted

end OpenCLTree

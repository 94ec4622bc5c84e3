import OpenCLTree.Proofs.Derivation.SourceFile
import OpenCLTree.Proofs.Diagnostics
import OpenCLTree.Proofs.Lossless
import OpenCLTree.Proofs.Tree.Located

namespace OpenCLTree

/-- Every node of a tree is one of a token stream that has been moved to its place in the source. -/
theorem parse_shaped (source : String) : ∀ node ∈ (parse source).tree.root.descendants.tail,
    ∃ inner : Node, inner.Shaped (tokenize source).1 ∧ inner.IsPlaced (tokenize source).1 ∧
      node = inner.mapSpan (Span.placeIn (tokenize source).1 (byteLength source.toList)) := by
  obtain ⟨last, items, _⟩ := Reading.ofTokens_items fun token member => (tokenize_simple source token member).kind
  obtain ⟨_, _, covering⟩ := Reading.ofTokens_covering (tokenize source).1
  have placed := covering.placed
  rw [Child.nodes_toChild] at placed
  rw [parse_root, Node.descendants_mk, Child.nodes_toChild, Node.preorder_mapSpan, List.tail_cons]
  exact List.forall_mem_map.mpr fun inner member =>
    ⟨inner, items.shaped inner member, placed inner member, rfl⟩

/-- How the declarations of a tree are classified: each as its kind says; kernels are defined at the
top level only; and where one is read as a declaration there, a diagnostic says so at its first
declarator. -/
structure Tree.IsClassified (tree : Tree) (diagnostics : List Diagnostic) : Prop where
  declarations : ∀ node ∈ tree.root.descendants, node.kind.isDeclaration = true → node.IsClassified
  kernels : ∀ node ∈ tree.root.descendants, node.kind = .kernelFunctionDefinition → node ∈ tree.items
  inside : ∀ item ∈ tree.items, ∀ inner ∈ item.descendants.tail, inner.kind ≠ .kernelFunctionDefinition
  reported : ∀ item ∈ tree.items, item.kind = .declaration → item.qualifierSet.contains .kernel = true →
    item.IsReported (diagnostics.map (·.error))

theorem parse_classified (source : String) :
    (parse source).tree.IsClassified (parse source).diagnostics := by
  obtain ⟨last, items, errors⟩ := Reading.ofTokens_items fun token member =>
    (tokenize_simple source token member).kind
  have inside : ∀ item ∈ (parse source).tree.items, ∀ inner ∈ item.descendants.tail,
      inner.kind ≠ .kernelFunctionDefinition := by
    rw [parse_items]
    refine List.forall_mem_map.mpr fun item listed => ?_
    rw [Node.descendants_mapSpan, ← List.map_tail]
    refine List.forall_mem_map.mpr fun inner below => ?_
    rw [Node.kind_mapSpan]
    exact items.below item listed inner below
  refine ⟨fun node member declaration => ?_, fun node member kernel => ?_, inside, ?_⟩
  · rcases Node.mem_descendants_iff.mp member with rfl | below
    · rw [parse_root] at declaration
      cases declaration
    · obtain ⟨inner, shaped, _, rfl⟩ := parse_shaped source node below
      rw [Node.kind_mapSpan] at declaration
      exact (shaped.classified declaration).mapSpan _
  · rcases Node.mem_descendants_iff.mp member with rfl | below
    · rw [parse_root] at kernel
      cases kernel
    · rw [Node.descendants_eq, List.tail_cons] at below
      obtain ⟨item, listed, within⟩ := Node.exists_of_mem_preorder below
      rcases Node.mem_descendants_iff.mp within with rfl | deeper
      · exact listed
      · exact absurd kernel (inside item listed node deeper)
  · rw [parse_items]
    refine List.forall_mem_map.mpr fun item listed declaration kernel => ?_
    rw [Node.kind_mapSpan] at declaration
    rw [Node.qualifierSet_mapSpan, QualifierSet.contains_mapSpan] at kernel
    refine ((items.reported item listed declaration kernel).mapSpan _).mono ?_
    rw [← errors]
    exact fun error found => (diagnostics_perm source).symm.subset (List.mem_append_right _ found)

end OpenCLTree

import OpenCLTree.Proofs.Diagnostics
import OpenCLTree.Proofs.Grammar.Formed

namespace OpenCLTree

/-- Every node of a tree is formed as it must, and the errors of its source tell which qualifiers do
not count. -/
theorem parse_formed (source : String) :
    ∀ node ∈ (parse source).tree.root.descendants, node.IsFormed (grammarErrors source) := by
  obtain ⟨last, read, _, errors⟩ := Reading.ofTokens_reads (tokenize source).1
  have formed := read.reads.formed
  rw [Child.nodes_toChild, ← errors] at formed
  rw [parse_root, Node.descendants_mk, Child.nodes_toChild, Node.preorder_mapSpan]
  refine List.forall_mem_cons.mpr ⟨.ofOther rfl rfl rfl, List.forall_mem_map.mpr fun node member => ?_⟩
  exact (formed node member).mapSpan _

/-- The operators of every tree group as their levels say: each part of an expression binds as
tightly as it must where it stands; and where it must bind tightest, it is no infix expression. -/
theorem parse_leveled (source : String) :
    (∀ node ∈ (parse source).tree.root.descendants, node.IsLeveled) ∧
      ∀ node ∈ (parse source).tree.root.descendants, ∀ child ∈ node.children,
        ∀ inner ∈ child.node?, node.kind.partLevel child.field? = .suffix →
          inner.isInfixed = false := by
  have leveled (node : Node) (member : node ∈ (parse source).tree.root.descendants) :
      node.IsLeveled := (parse_formed source node member).leveled
  refine ⟨leveled, fun node member child listed inner isNode tightest => ?_⟩
  have binds := (leveled node member).parts child listed
  cases child with
  | token => cases isNode
  | node field inner =>
    cases isNode
    rw [Child.Binds, show node.kind.partLevel field = .suffix from tightest] at binds
    exact Node.isInfixed_eq_false binds

/-- What holds of the qualifiers of a node and of some errors: the qualifiers that count have different
categories and are those of the set of the node; inserting all that are written gives this set; and
one that does not count stands in an error node behind one of its category, and is an error. -/
structure Node.QualifiersAgree (errors : List ParseError) (node : Node) : Prop where
  held : ∀ inner ∈ node.childNodes, inner.kind.isQualifier = true →
    ∃ entry, inner.qualifierEntry? = some entry
  distinct : (node.childNodes.filterMap qualifierEntry?).Pairwise fun one two =>
    one.qualifier.category ≠ two.qualifier.category
  entries : node.qualifierSet.entries = node.childNodes.filterMap qualifierEntry?
  written : node.qualifierSet = QualifierSet.ofEntries (Child.writtenQualifiers node.children)
  duplicates : ∀ before after field inner, node.children = before ++ .node field inner :: after →
    inner.kind = .error → ∃ token qualifier earlier,
      inner = .ofToken .error token ∧ token.kind = .qualifier qualifier ∧
        earlier ∈ (Child.nodes before).filterMap qualifierEntry? ∧
        earlier.qualifier.category = qualifier.category ∧
        .duplicateQualifier qualifier.category earlier.span token.span ∈ errors

theorem Qualifies.agree {errors : List ParseError} {node : Node} {set : QualifierSet}
    (qualifies : Qualifies errors node.children set) : node.QualifiersAgree errors := by
  have entries : node.childNodes.filterMap Node.qualifierEntry? = set.entries := qualifies.entries
  have same : node.qualifierSet = set := by
    rw [Node.qualifierSet, entries]
    exact qualifies.ofEntries_entries
  exact {
    held := qualifies.held
    distinct := entries ▸ qualifies.distinct
    entries := by rw [same, entries]
    written := by rw [same, qualifies.ofEntries_written]
    duplicates := fun before after field inner found isError => qualifies.earlier found isError }

/-- Whether the qualifiers of every declaration, type name and pointer of a tree agree with its set,
and every duplicate among them is a diagnostic that tells where the first one is. -/
def Tree.QualifiersAgree (tree : Tree) (diagnostics : List Diagnostic) : Prop :=
  ∀ node ∈ tree.root.descendants, node.kind.holdsQualifiers = true →
    node.QualifiersAgree (diagnostics.map (·.error))

theorem parse_qualifiersAgree (source : String) :
    (parse source).tree.QualifiersAgree (parse source).diagnostics := by
  intro node member holds
  obtain ⟨set, qualifies⟩ := (parse_formed source node member).qualifies holds
  refine (qualifies.mono ?_).agree
  intro error reported
  exact (diagnostics_perm source).symm.subset (List.mem_append_right _ reported)

end OpenCLTree

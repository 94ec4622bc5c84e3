import OpenCLTree.Proofs.Reading
import OpenCLTree.Proofs.Tree.Builder
import OpenCLTree.Proofs.Yields.SourceFile

namespace OpenCLTree

/-- Whether a node obeys the catalog of kinds: its kind lists every field it has, so that it can be
built child by child under the check of the fields, also where its kind is set late; its table of
fields is sound; and it is written with the one label that the table gives each child. -/
structure Node.ObeysCatalog (node : Node) : Prop where
  listed : ∀ field ∈ node.fieldNames, node.kind.hasField field = true
  built : node.IsBuilt
  table : node.HasSoundTable
  sexp : node.sexp = '(' :: node.kind.name.toList ++ node.children.zipIdx.flatMap
    (fun (child, index) => child.sexp (node.fieldAt? index)) ++ [')']

theorem Node.IsListed.obeysCatalog {node : Node} (listed : node.IsListed) : node.ObeysCatalog where
  listed := by
    intro field used
    rw [fieldNames, List.mem_eraseDups, List.mem_filterMap] at used
    obtain ⟨child, member, fills⟩ := used
    exact listed child member field fills
  built := isBuilt listed
  table := hasSoundTable node
  sexp := sexp_eq node

def Tree.ObeysCatalog (tree : Tree) : Prop :=
  ∀ node ∈ tree.root.descendants, node.ObeysCatalog

theorem parse_obeysCatalog (source : String) : (parse source).tree.ObeysCatalog := by
  have items := (Reading.ofTokens_sound (tokenize source).1).1
  have root : (parse source).tree.root.Catalogued := by
    rw [parse_root]
    refine Node.catalogued_mk.mpr (Child.fill_nodes.mpr (List.forall_mem_map.mpr ?_))
    exact fun item member => (items item member).mapSpan _
  exact fun node member => (root node member).obeysCatalog

end OpenCLTree

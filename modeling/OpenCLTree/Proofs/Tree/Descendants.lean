import OpenCLTree.Proofs.Tree.Leaves

namespace OpenCLTree

namespace Node

theorem preorder_nil : preorder [] = [] := by
  rw [preorder]

theorem preorder_append (front back : List Node) :
    preorder (front ++ back) = preorder front ++ preorder back := by
  fun_induction preorder front with
  | case1 => rfl
  | case2 kind span children pending ih =>
    rw [List.cons_append, preorder, ← List.append_assoc, ih, List.cons_append]

theorem preorder_cons (node : Node) (pending : List Node) :
    preorder (node :: pending) = node.descendants ++ preorder pending :=
  preorder_append [node] pending

/-- The nodes of a tree are its root and the nodes below the children of the root. -/
theorem descendants_mk (kind : NodeKind) (span : Span) (children : List Child) :
    (mk kind span children).descendants = mk kind span children :: preorder (Child.nodes children) := by
  rw [descendants, preorder, List.append_nil]

theorem descendants_make (kind : NodeKind) (children : List Child) :
    (make kind children).descendants = make kind children :: preorder (Child.nodes children) :=
  descendants_mk kind _ children

theorem mem_preorder {nodes : List Node} {node inner : Node} (member : node ∈ nodes)
    (below : inner ∈ node.descendants) : inner ∈ preorder nodes := by
  induction nodes with
  | nil => cases member
  | cons head rest ih =>
    rw [preorder_cons, List.mem_append]
    obtain rfl | later := List.mem_cons.mp member
    · exact .inl below
    · exact .inr (ih later)

theorem descendants_eq (node : Node) : node.descendants = node :: preorder node.childNodes := by
  cases node
  exact descendants_mk _ _ _

theorem exists_of_mem_preorder {nodes : List Node} {inner : Node} (member : inner ∈ preorder nodes) :
    ∃ node ∈ nodes, inner ∈ node.descendants := by
  induction nodes with
  | nil =>
    rw [preorder_nil] at member
    cases member
  | cons head rest ih =>
    rw [preorder_cons, List.mem_append] at member
    rcases member with here | later
    · exact ⟨head, List.mem_cons_self, here⟩
    · obtain ⟨node, listed, below⟩ := ih later
      exact ⟨node, List.mem_cons_of_mem _ listed, below⟩

theorem mem_descendants_iff {node inner : Node} :
    inner ∈ node.descendants ↔ inner = node ∨ inner ∈ node.descendants.tail := by
  rw [descendants_eq]
  exact List.mem_cons

theorem mem_preorder_self {nodes : List Node} {node : Node} (member : node ∈ nodes) :
    node ∈ preorder nodes := by
  refine mem_preorder member ?_
  cases node
  rw [descendants_mk]
  exact List.mem_cons_self

theorem mem_preorder_child {nodes : List Node} {node inner : Node} (member : node ∈ nodes)
    (below : inner ∈ Child.nodes node.children) : inner ∈ preorder nodes := by
  refine mem_preorder member ?_
  cases node
  rw [descendants_mk]
  exact List.mem_cons_of_mem _ (mem_preorder_self below)

/-- Below a node lie the nodes below its children. -/
theorem mem_preorder_trans {nodes : List Node} {node inner : Node} (member : node ∈ preorder nodes)
    (below : inner ∈ node.childNodes) : inner ∈ preorder nodes := by
  fun_induction preorder nodes with
  | case1 => cases member
  | case2 kind span children pending ih =>
    rcases List.mem_cons.mp member with rfl | later
    · exact List.mem_cons_of_mem _ (mem_preorder_self (List.mem_append_left _ below))
    · exact List.mem_cons_of_mem _ (ih later)

theorem mem_descendants_tail {node inner root : Node} (member : node ∈ root.descendants)
    (below : inner ∈ node.childNodes) : inner ∈ root.descendants.tail := by
  obtain ⟨kind, span, children⟩ := root
  rw [descendants_mk] at member ⊢
  rcases List.mem_cons.mp member with rfl | later
  · exact mem_preorder_self below
  · exact mem_preorder_trans later below

end Node

end OpenCLTree

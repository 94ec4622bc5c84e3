import OpenCLTree.Proofs.Grammar.Apart

namespace OpenCLTree

/-- Whether there is a kernel qualifier among some children. -/
def Child.HasKernel (children : List Child) : Prop :=
  ∃ node ∈ Child.nodes children, node.kind = .kernelQualifier

namespace Child

theorem hasKernel_append {front back : List Child} :
    HasKernel (front ++ back) ↔ HasKernel front ∨ HasKernel back := by
  simp only [HasKernel, nodes_append, List.mem_append, or_and_right, exists_or]

theorem hasKernel_node {field : Option Field} {node : Node} {rest : List Child} :
    HasKernel (.node field node :: rest) ↔ node.kind = .kernelQualifier ∨ HasKernel rest := by
  simp [HasKernel, nodes]

theorem not_hasKernel_nil : ¬ HasKernel [] := by
  simp [HasKernel, nodes]

end Child

theorem QualifierSet.isKernel_insert {set larger : QualifierSet} {qualifier : Qualifier}
    {span : Span} (inserted : set.insert qualifier span = .ok larger) :
    larger.isKernel = true ↔ set.isKernel = true ∨ qualifier = .kernel := by
  unfold insert at inserted
  split at inserted
  · cases inserted
  · cases inserted
    simp [isKernel, contains]

theorem Qualifier.nodeKind_eq_kernelQualifier {qualifier : Qualifier} :
    qualifier.nodeKind = .kernelQualifier ↔ qualifier = .kernel := by
  cases qualifier <;> decide

theorem Child.Apart.not_hasKernel {children : List Child} (apart : Apart children) :
    ¬ HasKernel children := by
  rintro ⟨node, member, kernel⟩
  have here := apart node member
  rw [kernel] at here
  cases here

/-- The set of the qualifiers among some children tells whether there is a kernel qualifier. -/
theorem Qualifies.isKernel_iff {reports : List ParseError} {children : List Child}
    {set : QualifierSet} (qualifies : Qualifies reports children set) :
    set.isKernel = true ↔ Child.HasKernel children := by
  induction qualifies with
  | nothing => exact iff_of_false (by decide) Child.not_hasKernel_nil
  | other _ apart ih => rw [ih, Child.hasKernel_append, or_iff_left apart.not_hasKernel]
  | @qualifier _ _ _ qualifier _ _ _ inserted ih =>
    rw [QualifierSet.isKernel_insert inserted, ih, Child.hasKernel_append, Node.toChild,
      Child.hasKernel_node, or_iff_left Child.not_hasKernel_nil]
    exact or_congr_right Qualifier.nodeKind_eq_kernelQualifier.symm
  | duplicate _ _ _ _ ih =>
    rw [ih, Child.hasKernel_append, Node.toChild, Child.hasKernel_node]
    exact (or_iff_left (by simp [Node.ofToken, Child.not_hasKernel_nil])).symm

namespace Rule

open Child

variable {sub : Grammar} {specifiers : Specifiers}

/-- Whether a node of a declaration has a kernel qualifier just where its specifiers have one. -/
def KernelOf (specifiers : Specifiers) (node : Node) : Prop :=
  HasKernel node.children ↔ HasKernel specifiers.children

theorem kernelOf_make {kind : NodeKind} {rest : List Child} (apart : Apart rest) :
    KernelOf specifiers (.make kind (specifiers.children ++ rest)) := by
  simp [KernelOf, hasKernel_append, apart.not_hasKernel]

theorem definitionAfter_gives {kind : NodeKind} {declared : Declared} (proper : declared.Proper) :
    (definitionAfter sub kind specifiers declared).Gives (KernelOf specifiers) := by
  refine gives_bind fun _ => definitionBody_gives.bind fun node kind => gives_pure ?_
  rw [List.append_assoc]
  exact kernelOf_make (apart_append.mpr ⟨proper.apart, apart_node.mpr ⟨by rw [kind]; rfl, apart_nil⟩⟩)

section Declarations

variable (reads : sub.ReadsDeclarators)

include reads

theorem kernelAfter_gives : (kernelAfter sub specifiers).Gives (KernelOf specifiers) := by
  refine (requiredDeclarator_gives reads).bind fun declarator known => ?_
  have asDeclaration {attributes : List Child} (areAttributes : Attributes attributes) :
      (kernelAfter.asDeclaration sub specifiers ⟨declarator, attributes⟩).Gives
        (KernelOf specifiers) :=
    (declarationRest_gives reads ⟨known, areAttributes⟩).bind fun rest declarators =>
      gives_pure (kernelOf_make declarators.apart)
  split
  · refine attributes_gives.bind fun attributes areAttributes => gives_bind fun here => ?_
    split
    · exact definitionAfter_gives ⟨known, areAttributes⟩
    · exact gives_bind fun _ => asDeclaration areAttributes
  · exact gives_bind fun _ => attributes_gives.bind fun attributes areAttributes =>
      asDeclaration areAttributes

theorem declarationAfter_gives {definition : Declared → Option (Rule Node)}
    (bodied : ∀ declared body, definition declared = some body → declared.Proper →
      body.Gives (KernelOf specifiers)) :
    (declarationAfter sub specifiers definition).Gives (KernelOf specifiers) := by
  refine gives_bind fun found => ?_
  split
  · exact gives_pure (kernelOf_make apart_nil)
  · refine (declared_gives reads).bind fun declared proper => gives_bind fun here => ?_
    split
    · rename_i body atBody
      split at atBody
      · cases atBody
      · exact bodied declared body atBody proper
    · exact (declarationRest_gives reads proper).bind fun rest declarators =>
        gives_pure (kernelOf_make declarators.apart)

end Declarations

end Rule

end OpenCLTree

import OpenCLTree.Proofs.Grammar.Apart
import OpenCLTree.Proofs.Tree.Classified

namespace OpenCLTree

/-- What is known of specifiers that have been read: their qualifiers make up their set, and one of
them is the type. -/
structure Specifiers.Proper (specifiers : Specifiers) : Prop where
  qualifies : ∃ reports, Qualifies reports specifiers.children specifiers.qualifiers
  type : (specifiers.children.filter (·.field? == some .type)).length = 1
  fields : ∀ child ∈ specifiers.children, child.field? = none ∨ child.field? = some .type

theorem Qualifies.qualifierSet {reports : List ParseError} {node : Node} {set : QualifierSet}
    (qualifies : Qualifies reports node.children set) : node.qualifierSet = set := by
  have entries : node.childNodes.filterMap Node.qualifierEntry? = set.entries := qualifies.entries
  rw [Node.qualifierSet, entries]
  exact qualifies.ofEntries_entries

namespace Specifiers.Proper

variable {specifiers : Specifiers} {kind : NodeKind} {rest : List Child}

theorem lackDeclarators (proper : specifiers.Proper) : Child.LackDeclarators specifiers.children := by
  intro child member
  rcases proper.fields child member with none | type
  · simp [none]
  · simp [type]

/-- Children that are no qualifiers leave the set of the specifiers the set of the whole. -/
theorem qualifierSet (proper : specifiers.Proper) (apart : Child.Apart rest) :
    (Node.make kind (specifiers.children ++ rest)).qualifierSet = specifiers.qualifiers := by
  obtain ⟨_, qualifies⟩ := proper.qualifies
  exact Qualifies.qualifierSet (qualifies.append apart)

theorem fieldsNamed_type (proper : specifiers.Proper)
    (other : ∀ child ∈ rest, child.field? ≠ some .type) :
    ((Node.make kind (specifiers.children ++ rest)).fieldsNamed .type).length = 1 := by
  have none : rest.filter (·.field? == some .type) = [] := by
    rw [List.filter_eq_nil_iff]
    exact fun child member => by simpa using other child member
  rw [Node.fieldsNamed, Node.children_make, List.filter_append, none, List.append_nil]
  exact proper.type

end Specifiers.Proper

namespace Rule

variable {sub : Grammar} {specifiers : Specifiers}

theorem qualifierNode_gives {qualifier : Qualifier} {token : Token} {children : List Child}
    {set : QualifierSet} {reports : List ParseError} (kind : token.kind = .qualifier qualifier)
    (qualifies : Qualifies reports children set) :
    (qualifierNode qualifier token set).Gives fun result =>
      ∃ reports, Qualifies reports (children ++ [result.1.toChild]) result.2 := by
  unfold qualifierNode
  split
  · rename_i inserted
    exact gives_pure ⟨reports, qualifies.qualifier kind inserted⟩
  · rename_i earlier inserted
    refine gives_bind fun _ => gives_pure
      ⟨.duplicateQualifier qualifier.category earlier.span token.span :: reports, ?_⟩
    exact (qualifies.mono (List.subset_cons_self _ _)).duplicate kind inserted List.mem_cons_self

/-- Qualifiers and attributes fill no fields. -/
theorem qualifiers_gives (specifiers : Specifiers)
    (qualifies : ∃ reports, Qualifies reports specifiers.children specifiers.qualifiers) :
    (qualifiers sub specifiers).Gives fun result =>
      (∃ reports, Qualifies reports result.children result.qualifiers) ∧
        ∃ added, result.children = specifiers.children ++ added ∧
          ∀ child ∈ added, child.field? = none := by
  refine gives_loop (fun soFar => (∃ reports, Qualifies reports soFar.children soFar.qualifiers) ∧
    ∃ added, soFar.children = specifiers.children ++ added ∧ ∀ child ∈ added, child.field? = none) ?_
    ⟨qualifies, [], by simp⟩
  rintro soFar ⟨⟨reports, qualifies⟩, added, grown, bare⟩
  have longer (node : Node) : ∃ added, soFar.children ++ [node.toChild] = specifiers.children ++ added ∧
      ∀ child ∈ added, child.field? = none := by
    refine ⟨added ++ [node.toChild], by rw [grown, List.append_assoc], ?_⟩
    exact List.forall_mem_append.mpr ⟨bare, List.forall_mem_singleton.mpr rfl⟩
  refine gives_bind fun found => ?_
  split
  · exact gives_pure ⟨⟨reports, qualifies⟩, added, grown, bare⟩
  · split
    · rename_i qualifier kind
      refine gives_bind fun _ => (qualifierNode_gives kind qualifies).bind fun result known => ?_
      exact gives_pure ⟨known, longer result.1⟩
    · refine attributeSpecifier_gives.bind fun node kind => gives_pure ⟨⟨reports, ?_⟩, longer node⟩
      exact qualifies.append (Child.apart_node.mpr ⟨by rw [kind]; rfl, Child.apart_nil⟩)
    · exact gives_pure ⟨⟨reports, qualifies⟩, added, grown, bare⟩

theorem declarationSpecifiers_gives : (declarationSpecifiers sub).Gives Specifiers.Proper := by
  refine (qualifiers_gives ⟨[], .empty⟩ ⟨[], .nothing⟩).bind fun before known => ?_
  obtain ⟨⟨reports, qualifies⟩, front, atFront, bareFront⟩ := known
  refine gives_bind fun found => ?_
  split
  · exact gives_failExpecting _
  · refine gives_bind fun starts => ?_
    split
    · refine typeSpecifier_gives.bind fun type apart => ?_
      refine (qualifiers_gives _ ⟨reports, qualifies.append (Child.apart_node.mpr ⟨apart, Child.apart_nil⟩)⟩).mono
        fun result known => ?_
      obtain ⟨qualifies, back, atBack, bareBack⟩ := known
      have none {children : List Child} (bare : ∀ child ∈ children, child.field? = none) :
          children.filter (·.field? == some .type) = [] := by
        rw [List.filter_eq_nil_iff]
        exact fun child member => by simp [bare child member]
      refine ⟨qualifies, ?_, ?_⟩
      · simp only [List.nil_append] at atFront
        rw [atBack, atFront, List.filter_append, List.filter_append, none bareFront, none bareBack]
        rfl
      · simp only [List.nil_append] at atFront
        rw [atBack, atFront]
        simp only [List.forall_mem_append, List.forall_mem_singleton]
        exact ⟨⟨fun child member => .inl (bareFront child member), .inr rfl⟩,
          fun child member => .inl (bareBack child member)⟩
    · exact gives_failExpecting _

end Rule

end OpenCLTree

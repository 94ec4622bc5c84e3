import OpenCLTree.Proofs.Formed

namespace OpenCLTree

namespace Node

variable {mode : DeclaratorMode} {node declarator : Node}

/-- Whether just abstract declarators have no name, and a name is an identifier inside its
declarator. -/
structure IsNamedUnlessAbstract (declarator : Node) : Prop where
  abstract : declarator.isAbstract = true ↔ declarator.declaratorName? = none
  name : ∀ token, declarator.declaratorName? = some token →
    token.kind = .identifier ∧ token ∈ declarator.leaves

theorem declaratorName?_of_ofToken {kind : NodeKind} {token : Token}
    (name : declarator.nameNode? = some (.ofToken kind token)) :
    declarator.declaratorName? = some token := by
  rw [declaratorName?, name]
  rfl

theorem Names.isNamedUnlessAbstract (names : declarator.Names mode) :
    declarator.IsNamedUnlessAbstract := by
  cases abstract : declarator.isAbstract with
  | true =>
    have none : declarator.declaratorName? = none := by
      rw [declaratorName?, (names.abstract abstract).2]
      rfl
    exact ⟨by simp [abstract, none], fun token some => by cases none.symm.trans some⟩
  | false =>
    obtain ⟨_, name, atName, identifier⟩ := names.named abstract
    have some := declaratorName?_of_ofToken atName
    refine ⟨by simp [abstract, some], fun token found => ?_⟩
    obtain rfl : name = token := Option.some.inj (some.symm.trans found)
    exact ⟨identifier, mem_leaves_of_declaratorName? found⟩

/-- Where a name is required, it stands in a node of the kind of the mode. -/
theorem Names.exists_nameNode? (names : declarator.Names mode) (required : mode.requiresName = true) :
    ∃ name, declarator.nameNode? = some name ∧ name.kind = mode.nameKind := by
  cases abstract : declarator.isAbstract with
  | true => cases required.symm.trans (names.abstract abstract).1
  | false =>
    obtain ⟨_, token, atName, _⟩ := names.named abstract
    exact ⟨_, atName, rfl⟩

theorem Names.isAbstract_of_unnamed (names : declarator.Names .unnamed) :
    declarator.isAbstract = true := by
  cases abstract : declarator.isAbstract with
  | true => rfl
  | false => cases (names.named abstract).1

namespace HasDeclarators

variable {inner : Node}

/-- The declarators of a node whose kind reads them in one mode alone. -/
theorem names_of_mode (has : node.HasDeclarators) (only : node.kind.declaratorModes = [mode])
    (within : inner.as .declarator ∈ node.children) : inner.Names mode := by
  obtain ⟨other, among, names⟩ := has.fields (by simp [only]) inner within
  rw [only, List.mem_singleton] at among
  exact among ▸ names

end HasDeclarators

end Node

/-- How the declarators of a tree are made: they have names unless they are abstract; a suffix binds
tighter than the `*` of a pointer; and what declares a variable, a function or a type, a member, or
nothing at all has the declarators that go with it. -/
structure Tree.HasSoundDeclarators (tree : Tree) : Prop where
  compound : ∀ node ∈ tree.root.descendants, node.kind.isCompound = true → node.IsNamedUnlessAbstract
  fields : ∀ node ∈ tree.root.descendants, node.kind.hasField .declarator = true →
    ∀ inner : Node, inner.as .declarator ∈ node.children → inner.IsNamedUnlessAbstract
  parenthesized : ∀ node ∈ tree.root.descendants, node.kind.isParenthesized = true →
    ∀ inner ∈ node.childNodes, inner.IsNamedUnlessAbstract
  suffixes : ∀ node ∈ tree.root.descendants, node.kind.isSuffix = true →
    ∀ inner : Node, inner.as .declarator ∈ node.children → inner.kind.isPointer = false
  declarations : ∀ node ∈ tree.root.descendants, node.kind.isDeclaration = true →
    ∀ inner : Node, inner.as .declarator ∈ node.children →
      ∃ name, inner.nameNode? = some name ∧ name.kind = .identifier
  members : ∀ node ∈ tree.root.descendants, node.kind = .fieldDeclaration →
    ∀ inner : Node, inner.as .declarator ∈ node.children →
      ∃ name, inner.nameNode? = some name ∧ name.kind = .fieldIdentifier
  typeNames : ∀ node ∈ tree.root.descendants, node.kind = .typeDescriptor →
    ∀ inner : Node, inner.as .declarator ∈ node.children → inner.isAbstract = true

theorem parse_declarators (source : String) : (parse source).tree.HasSoundDeclarators := by
  have all (node : Node) (member : node ∈ (parse source).tree.root.descendants) :
      node.HasDeclarators := (parse_formed source node member).declarators
  constructor
  case compound =>
    intro node member compound
    obtain ⟨mode, names⟩ := (all node member).own compound
    exact names.isNamedUnlessAbstract
  case fields =>
    intro node member listed inner within
    obtain ⟨mode, _, names⟩ :=
      (all node member).fields (NodeKind.declaratorModes_of_hasField listed) inner within
    exact names.isNamedUnlessAbstract
  case parenthesized =>
    intro node member parenthesized inner within
    obtain ⟨mode, names⟩ := (all node member).parentheses parenthesized inner within
    exact names.isNamedUnlessAbstract
  case suffixes => exact fun node member => (all node member).tight
  case declarations =>
    intro node member declaration inner within
    have named : node.kind.declaratorModes = [.named] := by
      cases kind : node.kind <;> rw [kind] at declaration <;> first | rfl | cases declaration
    exact ((all node member).names_of_mode named within).exists_nameNode? rfl
  case members =>
    intro node member kind inner within
    exact ((all node member).names_of_mode (by rw [kind]; rfl) within).exists_nameNode? rfl
  case typeNames =>
    intro node member kind inner within
    exact ((all node member).names_of_mode (by rw [kind]; rfl) within).isAbstract_of_unnamed

end OpenCLTree

import OpenCLTree.Proofs.Grammar.Specified

namespace OpenCLTree

namespace Node

variable {kind : NodeKind} {field : Field} {front rest : List Child}

/-- Children in other fields do not matter to what is in a field. -/
theorem fieldNode?_append (elsewhere : ∀ child ∈ front, child.field? ≠ some field) :
    (make kind (front ++ rest)).fieldNode? field = (make kind rest).fieldNode? field := by
  have none : front.filter (·.field? == some field) = [] := by
    rw [List.filter_eq_nil_iff]
    exact fun child member => by simpa using elsewhere child member
  simp only [fieldNode?, field?, fieldsNamed, children_make, List.filter_append, none, List.nil_append]

theorem fieldNode?_cons (inner : Node) :
    (make kind (inner.as field :: rest)).fieldNode? field = some inner := by
  simp [fieldNode?, field?, fieldsNamed, Node.as, Child.field?, Child.node?]

end Node

/-- How the children of a declaration go on behind its specifiers, the first declarator being known. -/
structure Declared.Opens (declared : Declared) (rest : List Child) : Prop where
  apart : Child.Apart rest
  fields : ∀ child ∈ rest, child.field? ≠ some .type
  head : ∃ later, rest = declared.declarator.as .declarator :: later ∨ ∃ others,
    rest = (Node.make .initDeclarator (declared.declarator.as .declarator :: others)).as .declarator :: later

namespace Declared.Opens

variable {declared : Declared} {rest more : List Child}

theorem append (opens : declared.Opens rest) (apart : Child.Apart more)
    (fields : ∀ child ∈ more, child.field? ≠ some .type) : declared.Opens (rest ++ more) where
  apart := Child.apart_append.mpr ⟨opens.apart, apart⟩
  fields := List.forall_mem_append.mpr ⟨opens.fields, fields⟩
  head := by
    obtain ⟨later, rfl | ⟨others, rfl⟩⟩ := opens.head
    · exact ⟨later ++ more, .inl rfl⟩
    · exact ⟨later ++ more, .inr ⟨others, rfl⟩⟩

end Declared.Opens

theorem Child.Attributes.field? {children : List Child} (attributes : Attributes children) :
    ∀ child ∈ children, child.field? = none := by
  intro child member
  obtain ⟨node, rfl, _⟩ := attributes child member
  rfl

theorem Declared.Proper.opens {declared : Declared} (proper : declared.Proper) :
    declared.Opens declared.children where
  apart := proper.apart
  fields := by
    refine List.forall_mem_cons.mpr ⟨nofun, fun child member => ?_⟩
    rw [proper.attributes.field? child member]
    nofun
  head := ⟨declared.attributes, .inl rfl⟩

namespace Specifiers.Proper

variable {specifiers : Specifiers} {declared : Declared} {kind : NodeKind} {rest : List Child}

theorem fieldNode? {field : Field} (proper : specifiers.Proper) (other : field ≠ .type) :
    (Node.make kind (specifiers.children ++ rest)).fieldNode? field = (Node.make kind rest).fieldNode? field :=
  Node.fieldNode?_append fun child member => by
    rcases proper.fields child member with none | type
    · rw [none]; nofun
    · rw [type]; exact fun same => other (Option.some.inj same).symm

theorem firstDeclarator? (proper : specifiers.Proper) (isDeclarator : declared.Proper)
    (opens : declared.Opens rest) :
    (Node.make kind (specifiers.children ++ rest)).firstDeclarator? = some declared.declarator := by
  rw [Node.firstDeclarator?, proper.fieldNode? (by decide)]
  obtain ⟨later, rfl | ⟨others, rfl⟩⟩ := opens.head
  · rw [Node.fieldNode?_cons, Option.bind_some, if_neg]
    intro init
    have kind := isDeclarator.declarator.kind
    rw [init] at kind
    cases kind
  · rw [Node.fieldNode?_cons, Option.bind_some, Node.kind_make, if_pos rfl, Node.fieldNode?_cons]

/-- A declaration that is no definition is classified by whether it has a `typedef`. -/
theorem classified_declaration (proper : specifiers.Proper) (apart : Child.Apart rest)
    (fields : ∀ child ∈ rest, child.field? ≠ some .type)
    (declaration : kind = .declaration ∨ kind = .typeDefinition)
    (typedef : specifiers.qualifiers.isKernel = false →
      (kind = .typeDefinition ↔ specifiers.qualifiers.isTypedef = true)) :
    (Node.make kind (specifiers.children ++ rest)).IsClassified where
  type := proper.fieldsNamed_type fields
  kernel isKernel := by rcases declaration with rfl | rfl <;> cases isKernel
  function isFunction := by rcases declaration with rfl | rfl <;> cases isFunction
  defined isDefinition := by
    rcases declaration with rfl | rfl <;> rcases isDefinition with same | same <;> cases same
  typedef _ := by
    rw [proper.qualifierSet apart]
    exact typedef

theorem classified_definition {body : Node} (proper : specifiers.Proper) (isDeclarator : declared.Proper)
    (isBody : body.kind = .compoundStatement) (function : declared.declarator.declaresFunction = true)
    (definition : kind = .kernelFunctionDefinition ∧ specifiers.qualifiers.isKernel = true ∨
      kind = .functionDefinition ∧ specifiers.qualifiers.isKernel = false ∧
        specifiers.qualifiers.isTypedef = false) :
    (Node.make kind (specifiers.children ++ (declared.children ++ [body.as .body]))).IsClassified := by
  have opens : declared.Opens (declared.children ++ [body.as .body]) :=
    isDeclarator.opens.append (Child.apart_node.mpr ⟨by rw [isBody]; rfl, Child.apart_nil⟩)
      (List.forall_mem_singleton.mpr nofun)
  have atBody : ∀ child ∈ declared.children, child.field? ≠ some .body := by
    refine List.forall_mem_cons.mpr ⟨nofun, fun child member => ?_⟩
    rw [isDeclarator.attributes.field? child member]
    nofun
  refine ⟨proper.fieldsNamed_type opens.fields, fun isKernel => ?_, fun isFunction => ?_, fun _ => ⟨?_, ?_⟩,
    fun declaration => ?_⟩
  · rw [proper.qualifierSet opens.apart]
    rcases definition with ⟨_, kernel⟩ | ⟨rfl, _⟩
    · exact kernel
    · cases isKernel
  · rw [proper.qualifierSet opens.apart]
    rcases definition with ⟨rfl, _⟩ | ⟨_, plain⟩
    · cases isFunction
    · exact plain
  · refine ⟨declared.declarator, ?_, (Node.declaresFunction_iff _).mp function⟩
    rw [proper.fieldNode? (by decide)]
    exact Node.fieldNode?_cons _
  · refine ⟨body, ?_, isBody⟩
    rw [proper.fieldNode? (by decide), Node.fieldNode?_append atBody]
    exact Node.fieldNode?_cons _
  · rcases definition with ⟨rfl, _⟩ | ⟨rfl, _⟩ <;> rcases declaration with same | same <;> cases same

end Specifiers.Proper

namespace Rule

variable {sub : Grammar} {declared : Declared} {sort : NameSort}

theorem initDeclarator_opens (proper : declared.Proper) :
    (initDeclarator sub sort declared).Gives declared.Opens := by
  refine gives_bind fun _ => gives_bind fun found => ?_
  split
  · refine gives_bind fun value => gives_pure ⟨Child.apart_node.mpr ⟨rfl, Child.apart_nil⟩,
      List.forall_mem_singleton.mpr nofun, [], .inr ?_⟩
    exact ⟨declared.attributes ++ [_, _], rfl⟩
  · exact gives_pure proper.opens

theorem declarationRest_opens (reads : sub.ReadsDeclarators) (proper : declared.Proper) :
    (declarationRest sub sort declared).Gives declared.Opens := by
  refine Gives.bind (?declarators : Gives _ declared.Opens) fun children opens =>
    gives_bind fun semicolon => gives_pure (opens.append Child.apart_nil (List.forall_mem_singleton.mpr nofun))
  -- Before the first round there are no children yet, and the next declarator is the first.
  refine gives_loop (fun current => current.2.Proper ∧
    (declared.Opens current.1 ∨ current.1 = [] ∧ current.2 = declared)) ?_ ⟨proper, .inr ⟨rfl, rfl⟩⟩
  rintro ⟨children, next⟩ ⟨isDeclarator, sofar⟩
  refine (initDeclarator_opens isDeclarator).bind fun added opens => gives_bind fun found => ?_
  have grown : declared.Opens (children ++ added) := by
    rcases sofar with before | ⟨rfl, rfl⟩
    · exact before.append opens.apart opens.fields
    · exact opens
  split
  · refine (declared_gives reads).bind fun later isDeclarator => gives_pure ⟨isDeclarator, .inl ?_⟩
    exact grown.append Child.apart_nil (List.forall_mem_singleton.mpr nofun)
  · exact gives_pure grown

end Rule

end OpenCLTree

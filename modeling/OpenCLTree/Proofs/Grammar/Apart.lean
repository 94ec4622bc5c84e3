import OpenCLTree.Proofs.Grammar.Builds
import OpenCLTree.Grammar.SourceFile

namespace OpenCLTree

/-- Whether some children are attribute specifiers. -/
def Child.Attributes (children : List Child) : Prop :=
  ∀ child ∈ children, ∃ node : Node, child = node.toChild ∧ node.kind = .attributeSpecifier

theorem Child.Attributes.apart {children : List Child} (attributes : Attributes children) :
    Apart children := by
  induction children with
  | nil => exact apart_nil
  | cons child rest ih =>
    obtain ⟨⟨node, rfl, kind⟩, later⟩ := List.forall_mem_cons.mp attributes
    exact apart_node.mpr ⟨by rw [kind]; rfl, ih later⟩

/-- What the children of a declaration are behind its specifiers: no qualifiers, and declarators that
are as a mode asks. -/
structure Child.Declarators (mode : DeclaratorMode) (children : List Child) : Prop where
  apart : Apart children
  names : Names mode children

namespace Child

variable {mode : DeclaratorMode} {children front back : List Child} {node : Node}

theorem declarators_nil : Declarators mode [] :=
  ⟨apart_nil, nofun⟩

theorem declarators_append (before : Declarators mode front) (after : Declarators mode back) :
    Declarators mode (front ++ back) where
  apart := apart_append.mpr ⟨before.apart, after.apart⟩
  names := before.names.append after.names

theorem declarators_of_lack (apart : Apart children) (lack : LackDeclarators children) :
    Declarators mode children :=
  ⟨apart, lack.names⟩

theorem declarators_token (leaf : Token) : Declarators mode [leaf.toChild] :=
  declarators_of_lack apart_nil (List.forall_mem_singleton.mpr nofun)

theorem declarators_node (names : node.Names mode) (apart : node.kind.isApart = true) :
    Declarators mode [node.as .declarator] where
  apart := apart_node.mpr ⟨apart, apart_nil⟩
  names := names_node names

theorem Attributes.lackDeclarators (attributes : Attributes children) : LackDeclarators children := by
  intro child member
  obtain ⟨node, rfl, _⟩ := attributes child member
  nofun

theorem Attributes.declarators (attributes : Attributes children) : Declarators mode children :=
  declarators_of_lack attributes.apart attributes.lackDeclarators

end Child

theorem Node.IsDeclarator.declarators {mode : DeclaratorMode} {node : Node}
    (isDeclarator : node.IsDeclarator mode) : Child.Declarators mode [node.as .declarator] :=
  Child.declarators_node isDeclarator.toNames (NodeKind.isApart_of_isDeclarator isDeclarator.kind)

/-- What is known of a declarator that has been read, and of the attributes after it. -/
structure Declared.Proper (declared : Declared) : Prop where
  declarator : declared.declarator.IsDeclarator .named
  attributes : Child.Attributes declared.attributes

theorem Declared.Proper.declarators {declared : Declared} (proper : declared.Proper) :
    Child.Declarators .named declared.children :=
  Child.declarators_append proper.declarator.declarators proper.attributes.declarators

theorem Declared.Proper.isCompound_init {declared : Declared} (proper : declared.Proper)
    (assign : Token) (value : Node) : (Node.make .initDeclarator
      (declared.children ++ [assign.toChild, value.as .value])).IsCompound .named := by
  refine .init proper.declarator.toNames (List.forall_mem_append.mpr ⟨?_, ?_⟩)
  · exact proper.attributes.lackDeclarators
  · exact List.forall_mem_cons.mpr ⟨nofun, List.forall_mem_singleton.mpr nofun⟩

theorem Declared.Proper.apart {declared : Declared} (proper : declared.Proper) :
    Child.Apart declared.children :=
  proper.declarators.apart

namespace Rule

open Child

variable {sub : Grammar} {room : Nat}

theorem attributeSpecifier_gives :
    (attributeSpecifier sub).Gives fun node => node.kind = .attributeSpecifier :=
  gives_bind fun _ => gives_bind fun _ => gives_bind fun _ => gives_bind fun _ =>
    gives_bind fun _ => gives_bind fun _ => gives_pure rfl

theorem attributes_gives : (attributes sub).Gives Attributes := by
  refine gives_many (gives_bind fun here => ?_)
  split
  · refine attributeSpecifier_gives.bind fun node kind => gives_pure fun child found => ?_
    cases found
    exact ⟨node, rfl, kind⟩
  · exact gives_pure (by simp)

theorem sizedTypeSpecifier_gives :
    sizedTypeSpecifier.Gives fun node => node.kind = .sizedTypeSpecifier := by
  refine gives_bind fun modifiers => gives_bind fun found => ?_
  split
  · split
    all_goals first | exact gives_bind fun _ => gives_pure rfl | exact gives_pure rfl
  · exact gives_pure rfl

theorem recordSpecifier_gives {keyword : Keyword} {kind : NodeKind} :
    (recordSpecifier sub keyword kind).Gives fun node => node.kind = kind := by
  refine gives_bind fun word => gives_bind fun before => gives_bind fun tag =>
    gives_bind fun here => ?_
  split
  · exact gives_bind fun _ => gives_bind fun _ => gives_pure rfl
  · split
    · exact gives_failExpecting _
    · exact gives_pure rfl

theorem enumSpecifier_gives :
    (enumSpecifier sub).Gives fun node => node.kind = .enumSpecifier := by
  refine gives_bind fun word => gives_bind fun before => gives_bind fun tag =>
    gives_bind fun here => ?_
  split
  · exact gives_bind fun _ => gives_pure rfl
  · split
    · exact gives_failExpecting _
    · exact gives_pure rfl

theorem typeToken_gives {kind : NodeKind} {token : Token} :
    (typeToken kind token).Gives fun node => node.kind = kind :=
  gives_bind fun _ => gives_pure rfl

theorem typeSpecifier_gives : (typeSpecifier sub).Gives fun node => node.kind.isApart = true := by
  have other {rule : Rule Node} {kind : NodeKind} (gives : rule.Gives fun node => node.kind = kind)
      (apart : kind.isApart = true) : rule.Gives fun node => node.kind.isApart = true :=
    gives.mono fun node same => same ▸ apart
  refine gives_bind fun found => ?_
  split
  · exact gives_failExpecting _
  · split
    case h_1 | h_2 | h_3 | h_4 => exact other sizedTypeSpecifier_gives rfl
    case h_15 => exact gives_bind fun _ => gives_bind fun _ => gives_pure rfl
    case h_16 | h_17 => exact other recordSpecifier_gives rfl
    case h_18 => exact other enumSpecifier_gives rfl
    case h_19 =>
      refine gives_bind fun scopes => ?_
      split
      · exact other typeToken_gives rfl
      · exact gives_failExpecting _
    case h_20 => exact gives_failExpecting _
    all_goals exact other typeToken_gives rfl

/-- Values that a closing token may stand in for. -/
theorem unlessAt_gives {closer : TokenKind} {rule : Rule (List Child)} {holds : List Child → Prop}
    (gives : rule.Gives holds) (nothing : holds []) : (unlessAt closer rule).Gives holds := by
  refine gives_bind fun here => ?_
  split
  · exact gives_pure nothing
  · exact gives

theorem size_gives {closer : TokenKind} {rule : Rule Node} :
    (unlessAt closer (only (·.as .size) rule)).Gives LackDeclarators := by
  refine unlessAt_gives (gives_bind fun node => gives_pure ?_) (List.forall_mem_nil _)
  exact List.forall_mem_singleton.mpr nofun

theorem bitfieldWidth_gives : (bitfieldWidth sub).Gives (Declarators .member) := by
  refine gives_bind fun found => ?_
  split
  · refine gives_bind fun value => gives_pure ?_
    exact declarators_of_lack (apart_node.mpr ⟨rfl, apart_nil⟩) (List.forall_mem_singleton.mpr nofun)
  · exact gives_pure declarators_nil

/-- The qualifiers of a pointer fill no fields. -/
theorem pointerQualifiers_gives : pointerQualifiers.Gives LackDeclarators := by
  refine Gives.bind (?collected : Gives _ fun soFar : Specifiers => LackDeclarators soFar.children)
    fun _ lack => gives_pure lack
  refine gives_loop (fun soFar : Specifiers => LackDeclarators soFar.children) ?_ (List.forall_mem_nil _)
  intro soFar lack
  refine gives_bind fun found => ?_
  split
  · exact gives_pure lack
  · split
    · split
      · refine gives_bind fun _ => gives_bind fun result => gives_pure ?_
        exact List.forall_mem_append.mpr ⟨lack, List.forall_mem_singleton.mpr nofun⟩
      · exact gives_pure lack
    · exact gives_pure lack

theorem arraySuffix_gives {mode : DeclaratorMode} {inner : Option Node} (admits : mode.Admits inner) :
    (arraySuffix sub inner).Gives fun node => node.Names mode ∧ node.kind.isDirect = true := by
  refine gives_bind fun opener => size_gives.bind fun size lack => gives_bind fun closer =>
    gives_pure ⟨?_, ?_⟩
  · exact (Node.IsCompound.array admits lack).names
  · rw [Node.kind_make]
    split <;> rfl

theorem functionSuffix_gives {mode : DeclaratorMode} {inner : Option Node} (admits : mode.Admits inner) :
    (functionSuffix sub inner).Gives fun node => node.Names mode ∧ node.kind.isDirect = true := by
  refine gives_bind fun list => gives_pure ⟨(Node.IsCompound.function admits).names, ?_⟩
  rw [Node.kind_make]
  split <;> rfl

/-- What is read in front of suffixes is as the mode asks, if it may be missing where it is. -/
theorem admits_of_core {mode : DeclaratorMode} {core : Option Node}
    (known : ∀ node ∈ core, node.Names mode ∧ node.kind.isDirect = true)
    (goesOn : ¬(core.isNone && mode.requiresName) = true) : mode.Admits core where
  missing none := by simpa [none] using goesOn
  names node found := (known node found).1
  direct node found := (known node found).2

section Declarations

variable (reads : sub.ReadsDeclarators)

include reads

theorem requiredDeclarator_gives {mode : DeclaratorMode} :
    (requiredDeclarator sub mode).Gives fun node => node.IsDeclarator mode := by
  refine (reads mode).nested.bind fun found known => ?_
  split
  · exact gives_pure (known _ rfl)
  · exact gives_failExpecting _

theorem parenthesizedDeclarator_gives {mode : DeclaratorMode} :
    (parenthesizedDeclarator sub mode).Gives fun node => node.Names mode ∧ node.kind.isDirect = true := by
  refine gives_bind fun opener => (requiredDeclarator_gives reads).bind fun inner known =>
    gives_bind fun closer => gives_pure ⟨(Node.IsCompound.parenthesized known.toNames).names, ?_⟩
  rw [Node.kind_make]
  split <;> rfl

theorem declaratorCore_gives {mode : DeclaratorMode} :
    (declaratorCore sub mode).Gives
      fun found => ∀ node ∈ found, node.Names mode ∧ node.kind.isDirect = true := by
  refine gives_bind fun found => ?_
  split
  · exact gives_pure nofun
  · rename_i token
    split
    · rename_i identifier
      split
      · rename_i allowed
        refine gives_bind fun _ => gives_pure fun node same => ?_
        cases same
        refine ⟨Node.names_ofToken allowed identifier, ?_⟩
        rw [Node.ofToken, Node.kind_make]
        split <;> rfl
      · exact gives_pure nofun
    · refine gives_bind fun opens => ?_
      split
      · refine (parenthesizedDeclarator_gives reads).nested.bind fun node known => gives_pure ?_
        exact fun _ same => Option.some.inj same ▸ known
      · exact gives_pure nofun
    · exact gives_pure nofun

theorem directDeclarator_gives {mode : DeclaratorMode} :
    (directDeclarator sub mode).Gives fun found => ∀ node ∈ found, node.IsDeclarator mode := by
  refine (declaratorCore_gives reads).bind fun core known => ?_
  split
  · exact gives_failExpecting _
  · rename_i goesOn
    refine gives_loop mode.Admits ?_ (admits_of_core known goesOn)
    intro inner admits
    refine gives_bind fun next => ?_
    split
    · exact (arraySuffix_gives admits).bind fun node known => gives_pure (.some known.1 known.2)
    · exact (functionSuffix_gives admits).bind fun node known => gives_pure (.some known.1 known.2)
    · refine gives_pure fun node found => ⟨admits.names node found, ?_⟩
      exact NodeKind.isDeclarator_of_isDirect (admits.direct node found)

theorem declarator_gives {mode : DeclaratorMode} :
    (declarator sub mode).Gives fun found => ∀ node ∈ found, node.IsDeclarator mode := by
  refine gives_bind fun star => ?_
  split
  · exact directDeclarator_gives reads
  · refine pointerQualifiers_gives.bind fun qualifiers lack => (reads mode).bind fun inner known => ?_
    split
    · refine gives_pure fun node same => ?_
      cases same
      refine ⟨(Node.IsCompound.pointer lack (known _ rfl).toNames).names, ?_⟩
      rw [Node.kind_make]
      split <;> rfl
    · split
      · exact gives_failExpecting _
      · rename_i free
        refine gives_pure fun node same => ?_
        cases same
        exact ⟨(Node.IsCompound.hollowPointer lack (by simpa using free)).names, rfl⟩

theorem declared_gives : (declared sub).Gives Declared.Proper :=
  (requiredDeclarator_gives reads).bind fun _ known =>
    attributes_gives.bind fun _ attributes => gives_pure ⟨known, attributes⟩

omit reads in
theorem initDeclarator_gives {sort : NameSort} {declared : Declared} (proper : declared.Proper) :
    (initDeclarator sub sort declared).Gives (Declarators .named) := by
  refine gives_bind fun _ => gives_bind fun found => ?_
  split
  · refine gives_bind fun value => gives_pure ?_
    exact declarators_node (proper.isCompound_init _ _).names rfl
  · exact gives_pure proper.declarators

theorem declarationRest_gives {sort : NameSort} {declared : Declared} (proper : declared.Proper) :
    (declarationRest sub sort declared).Gives (Declarators .named) := by
  refine Gives.bind (?declarators : Gives _ (Declarators .named))
    fun children known => gives_bind fun semicolon => gives_pure
      (declarators_append known (declarators_token semicolon))
  refine gives_loop (fun current => Declarators .named current.1 ∧ current.2.Proper) ?_
    ⟨declarators_nil, proper⟩
  rintro ⟨children, next⟩ ⟨before, proper⟩
  refine (initDeclarator_gives proper).bind fun declarator here => gives_bind fun found => ?_
  split
  · refine (declared_gives reads).bind fun later proper => gives_pure ⟨?_, proper⟩
    exact declarators_append (declarators_append before here) (declarators_token _)
  · exact gives_pure (declarators_append before here)

theorem fieldDeclarators_gives : (fieldDeclarators sub).Gives (Declarators .member) := by
  refine gives_loop (Declarators .member) ?_ declarators_nil
  intro soFar before
  have declarator : (unlessAt (.punct .colon)
      (only (·.as .declarator) (requiredDeclarator sub .member))).Gives (Declarators .member) :=
    unlessAt_gives ((requiredDeclarator_gives reads).bind fun node known => gives_pure known.declarators)
      declarators_nil
  refine declarator.bind fun declarator here => bitfieldWidth_gives.bind
    fun width atWidth => attributes_gives.bind fun attributes areAttributes => ?_
  have members : Declarators .member (soFar ++ declarator ++ width ++ attributes) :=
    declarators_append (declarators_append (declarators_append before here) atWidth) areAttributes.declarators
  refine gives_bind fun found => ?_
  split
  · exact gives_pure (declarators_append members (declarators_token _))
  · exact gives_pure members

end Declarations

/-- The items of a block fill no fields. -/
theorem blockItems_gives {stops : List TokenKind} :
    (blockItems sub stops).Gives fun items => ∀ child ∈ items, child.field? = none := by
  refine gives_many (gives_bind fun kind => ?_)
  split
  · exact gives_pure (by simp)
  · split
    · exact gives_pure (by simp)
    · refine gives_bind fun item => gives_pure fun child found => ?_
      cases found
      rfl

theorem compoundStatement_gives :
    (compoundStatement sub).Gives fun node => node.kind = .compoundStatement :=
  gives_bind fun _ => gives_bind fun _ => gives_bind fun _ => gives_pure rfl

/-- The body of a function, whose parameters are declared in a scope of their own. -/
theorem definitionBody_gives {names : List String} :
    (inScope do
      mapScopes fun scopes => names.foldl (·.declare · .ordinary) scopes
      compoundStatement sub).Gives fun node => node.kind = .compoundStatement :=
  gives_bind fun _ => (gives_bind fun _ => compoundStatement_gives).closing _

theorem designators_gives :
    (designators sub).Gives fun children => ∀ child ∈ children, child.field? = some .designator := by
  refine gives_many (gives_bind fun kind => ?_)
  have designator (node : Node) :
      ∀ child ∈ some (node.as .designator), child.field? = some .designator := by
    intro child found
    cases found
    rfl
  split
  · exact gives_bind fun _ => gives_bind fun _ => gives_pure (designator _)
  · exact gives_bind fun _ => gives_bind fun _ => gives_bind fun _ => gives_pure (designator _)
  · exact gives_pure (by simp)

end Rule

end OpenCLTree

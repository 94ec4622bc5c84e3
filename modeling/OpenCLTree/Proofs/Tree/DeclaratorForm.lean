import OpenCLTree.Grammar.Declarator
import OpenCLTree.Proofs.Tree.Classified
import OpenCLTree.Proofs.Tree.Qualified

namespace OpenCLTree

namespace DeclaratorMode

/-- The kind of the nodes of names that are read in a mode. -/
def nameKind (mode : DeclaratorMode) : NodeKind :=
  if mode = .member then .fieldIdentifier else .identifier

def all : List DeclaratorMode :=
  [.named, .member, .unnamed, .either]

theorem mem_all (mode : DeclaratorMode) : mode ∈ all := by
  cases mode <;> decide

end DeclaratorMode

namespace NodeKind

def isPointer : NodeKind → Bool
  | .pointerDeclarator | .abstractPointerDeclarator => true
  | _ => false

/-- The kinds of declarators that end with a suffix: a size or parameters. -/
def isSuffix : NodeKind → Bool
  | .arrayDeclarator | .abstractArrayDeclarator | .functionDeclarator
  | .abstractFunctionDeclarator => true
  | _ => false

def isParenthesized : NodeKind → Bool
  | .parenthesizedDeclarator | .abstractParenthesizedDeclarator => true
  | _ => false

/-- The kinds of declarators that have parts, and are no bare names. -/
def isCompound (kind : NodeKind) : Bool :=
  kind.isPointer || kind.isSuffix || kind.isParenthesized || kind == .initDeclarator

/-- Whether a declarator of some kind can stand in front of a suffix. -/
def isDirect (kind : NodeKind) : Bool :=
  kind.isDeclarator && !kind.isPointer

/-- The modes in which the declarators are read that stand right inside nodes of a kind. -/
def declaratorModes : NodeKind → List DeclaratorMode
  | .declaration | .typeDefinition | .functionDefinition | .kernelFunctionDefinition
  | .initDeclarator => [.named]
  | .fieldDeclaration => [.member]
  | .typeDescriptor => [.unnamed]
  | .parameterDeclaration => [.either]
  | .pointerDeclarator | .abstractPointerDeclarator | .parenthesizedDeclarator
  | .abstractParenthesizedDeclarator | .arrayDeclarator | .abstractArrayDeclarator
  | .functionDeclarator | .abstractFunctionDeclarator => DeclaratorMode.all
  | _ => []

theorem declaratorModes_of_isCompound {kind : NodeKind} (layer : kind.isCompound = true) :
    kind.declaratorModes ≠ [] := by
  cases kind <;> first | exact List.cons_ne_nil _ _ | cases layer

theorem declaratorModes_of_hasField {kind : NodeKind} (listed : kind.hasField .declarator = true) :
    kind.declaratorModes ≠ [] := by
  cases kind <;> first | exact List.cons_ne_nil _ _ | cases listed

theorem isDeclarator_of_isDirect {kind : NodeKind} (direct : kind.isDirect = true) :
    kind.isDeclarator = true :=
  (Bool.and_eq_true_iff.mp direct).1

theorem isPointer_of_isDirect {kind : NodeKind} (direct : kind.isDirect = true) :
    kind.isPointer = false := by
  simpa using (Bool.and_eq_true_iff.mp direct).2

theorem isName_eq_false_of_abstract {kind : NodeKind} (abstract : kind.isAbstractDeclarator = true) :
    kind.isName = false := by
  cases kind <;> first | rfl | cases abstract

theorem isCompound_of_isSuffix {kind : NodeKind} (suffix : kind.isSuffix = true) : kind.isCompound = true := by
  simp [isCompound, suffix]

theorem isCompound_of_isParenthesized {kind : NodeKind} (parentheses : kind.isParenthesized = true) :
    kind.isCompound = true := by
  simp [isCompound, parentheses]

end NodeKind

/-- Whether none of some children fills the field of a declarator. -/
def Child.LackDeclarators (children : List Child) : Prop :=
  ∀ child ∈ children, child.field? ≠ some .declarator

namespace Node

/-- What a declarator names that has been read in a mode: an abstract one nothing, which the mode has
to allow; and any other an identifier, in a node of the kind that the mode gives to names. -/
structure Names (mode : DeclaratorMode) (declarator : Node) : Prop where
  abstract : declarator.isAbstract = true → mode.requiresName = false ∧ declarator.nameNode? = none
  named : declarator.isAbstract = false → mode.allowsName = true ∧ ∃ token : Token,
    declarator.nameNode? = some (.ofToken mode.nameKind token) ∧ token.kind = .identifier

/-- The same of a node whose kind is that of a declarator. -/
structure IsDeclarator (mode : DeclaratorMode) (declarator : Node) : Prop
    extends declarator.Names mode where
  kind : declarator.kind.isDeclarator = true

end Node

namespace Child

variable {mode : DeclaratorMode} {children front back : List Child} {node : Node}

/-- Whether the declarators among some children are as a mode asks. -/
def Names (mode : DeclaratorMode) (children : List Child) : Prop :=
  ∀ inner : Node, inner.as .declarator ∈ children → inner.Names mode

theorem LackDeclarators.names (lack : LackDeclarators children) : Names mode children :=
  fun _ member => absurd rfl (lack _ member)

theorem Names.append (before : Names mode front) (after : Names mode back) :
    Names mode (front ++ back) :=
  fun inner member => (List.mem_append.mp member).elim (before inner) (after inner)

theorem names_node (names : node.Names mode) : Names mode [node.as .declarator] := by
  intro inner member
  cases List.mem_singleton.mp member
  exact names

end Child

namespace DeclaratorMode

/-- Whether a declarator that may be missing is as a mode asks. -/
structure Allows (mode : DeclaratorMode) (found : Option Node) : Prop where
  missing : found = none → mode.requiresName = false
  names : ∀ node ∈ found, node.Names mode

/-- The same in front of a suffix. -/
structure Admits (mode : DeclaratorMode) (found : Option Node) : Prop extends mode.Allows found where
  direct : ∀ node ∈ found, node.kind.isDirect = true

theorem Allows.none {mode : DeclaratorMode} (free : mode.requiresName = false) : mode.Allows none :=
  ⟨fun _ => free, nofun⟩

theorem Allows.some {mode : DeclaratorMode} {node : Node} (names : node.Names mode) :
    mode.Allows (some node) where
  missing := nofun
  names _ same := Option.some.inj same ▸ names

theorem Admits.some {mode : DeclaratorMode} {node : Node} (names : node.Names mode)
    (direct : node.kind.isDirect = true) : mode.Admits (.some node) where
  toAllows := .some names
  direct _ same := Option.some.inj same ▸ direct

end DeclaratorMode

namespace Node

variable {mode : DeclaratorMode} {node inner : Node} {kind : NodeKind} {found : Option Node}
  {front rest : List Child}

theorem names_ofToken {token : Token} (allowed : mode.allowsName = true)
    (identifier : token.kind = .identifier) : (ofToken mode.nameKind token).Names mode := by
  have isName : (ofToken mode.nameKind token).kind.isName = true := by
    rw [ofToken, kind_make, DeclaratorMode.nameKind]
    split <;> rfl
  refine ⟨fun abstract => ?_, fun _ => ⟨allowed, token, ?_, identifier⟩⟩
  · rw [isAbstract, ofToken, kind_make, DeclaratorMode.nameKind] at abstract
    split at abstract <;> cases abstract
  · rw [nameNode?_of_none (innerDeclarator?_of_isName isName), if_pos isName]

/-- A declarator around another one has the name of that one. -/
theorem Names.around (names : inner.Names mode) (inside : node.innerDeclarator? = some inner)
    (same : node.isAbstract = inner.isAbstract) : node.Names mode := by
  refine ⟨fun abstract => ?_, fun named => ?_⟩
  · rw [nameNode?_of_inner inside]
    exact names.abstract (same ▸ abstract)
  · rw [nameNode?_of_inner inside]
    exact names.named (same ▸ named)

/-- A declarator around nothing. -/
theorem names_of_none (free : mode.requiresName = false) (inside : node.innerDeclarator? = none)
    (abstract : node.isAbstract = true) : node.Names mode := by
  refine ⟨fun _ => ⟨free, ?_⟩, fun named => ?_⟩
  · rw [nameNode?_of_none inside, if_neg]
    rw [NodeKind.isName_eq_false_of_abstract abstract]
    decide
  · cases abstract.symm.trans named

theorem fieldNode?_declaratorChild (lack : Child.LackDeclarators (front ++ rest)) :
    (make kind (front ++ declaratorChild found ++ rest)).fieldNode? .declarator = found := by
  obtain ⟨before, after⟩ := List.forall_mem_append.mp lack
  have none {children : List Child} (lack : Child.LackDeclarators children) :
      children.filter (·.field? == some .declarator) = [] := by
    rw [List.filter_eq_nil_iff]
    exact fun child member => by simpa using lack child member
  simp only [fieldNode?, field?, fieldsNamed, children_make, List.filter_append, none before, none after,
    List.nil_append, List.append_nil]
  cases found <;> rfl

/-- What is known of the declarators right inside a node, and of the node where it is one itself. -/
structure HasDeclarators (node : Node) : Prop where
  own : node.kind.isCompound = true → ∃ mode, node.Names mode
  fields : node.kind.declaratorModes ≠ [] → ∀ inner : Node, inner.as .declarator ∈ node.children →
    ∃ mode ∈ node.kind.declaratorModes, inner.Names mode
  parentheses : node.kind.isParenthesized = true → ∀ inner ∈ node.childNodes, ∃ mode, inner.Names mode
  tight : node.kind.isSuffix = true → ∀ inner : Node, inner.as .declarator ∈ node.children →
    inner.kind.isPointer = false

namespace HasDeclarators

theorem ofOther (free : node.kind.declaratorModes = []) : node.HasDeclarators where
  own compound := absurd free (NodeKind.declaratorModes_of_isCompound compound)
  fields some := absurd free some
  parentheses isParenthesized := absurd free
    (NodeKind.declaratorModes_of_isCompound (NodeKind.isCompound_of_isParenthesized isParenthesized))
  tight suffix := absurd free
    (NodeKind.declaratorModes_of_isCompound (NodeKind.isCompound_of_isSuffix suffix))

/-- A node that is no declarator itself. -/
theorem ofFields {children : List Child} (member : mode ∈ kind.declaratorModes)
    (plain : kind.isCompound = false)
    (names : Child.Names mode children) : (make kind children).HasDeclarators where
  own compound := by cases plain.symm.trans compound
  fields _ inner within := ⟨mode, member, names inner within⟩
  parentheses isParenthesized := by
    cases plain.symm.trans (NodeKind.isCompound_of_isParenthesized isParenthesized)
  tight suffix := by cases plain.symm.trans (NodeKind.isCompound_of_isSuffix suffix)

end HasDeclarators

/-- Whether a node is a declarator that is as a mode asks, like those inside it. -/
structure IsCompound (mode : DeclaratorMode) (node : Node) : Prop where
  names : node.Names mode
  declarators : node.HasDeclarators

theorem mem_declaratorChild (lack : Child.LackDeclarators (front ++ rest))
    (member : inner.as .declarator ∈ front ++ declaratorChild found ++ rest) : inner ∈ found := by
  obtain ⟨before, after⟩ := List.forall_mem_append.mp lack
  rcases List.mem_append.mp member with early | late
  · rcases List.mem_append.mp early with early | here
    · exact absurd rfl (before _ early)
    · cases found with
      | none => cases here
      | some node =>
        cases List.mem_singleton.mp here
        rfl
  · exact absurd rfl (after _ late)

namespace IsCompound

variable {opener closer : Token} {children : List Child}

/-- A declarator whose inner one, if there is one, fills its field. -/
theorem ofParts (parts : children = front ++ declaratorChild found ++ rest)
    (lack : Child.LackDeclarators (front ++ rest)) (allows : mode.Allows found)
    (member : mode ∈ kind.declaratorModes) (other : kind.isName = false)
    (bare : kind.isParenthesized = false) (same : kind.isAbstractDeclarator = suffixIsAbstract found)
    (tight : kind.isSuffix = true → ∀ inner ∈ found, inner.kind.isPointer = false) :
    (make kind children).IsCompound mode := by
  subst parts
  have layer : kind ≠ .parenthesizedDeclarator := by
    rintro rfl
    cases bare
  have inside : (make kind (front ++ declaratorChild found ++ rest)).innerDeclarator? = found := by
    rw [innerDeclarator?_of_layer (by rwa [kind_make]) (by rwa [kind_make])]
    exact fieldNode?_declaratorChild lack
  have names : (make kind (front ++ declaratorChild found ++ rest)).Names mode := by
    cases found with
    | none => exact names_of_none (allows.missing rfl) inside same
    | some inner => exact (allows.names inner rfl).around inside same
  exact {
    names := names
    declarators := {
      own := fun _ => ⟨mode, names⟩
      fields := fun _ inner within => ⟨mode, member, allows.names inner (mem_declaratorChild lack within)⟩
      parentheses := fun isParenthesized => by cases bare.symm.trans isParenthesized
      tight := fun suffix inner within => tight suffix inner (mem_declaratorChild lack within) } }

theorem pointer {star : Token} {qualifiers : List Child} (lack : Child.LackDeclarators qualifiers)
    (names : inner.Names mode) :
    (make (if inner.isAbstract then .abstractPointerDeclarator else .pointerDeclarator)
      (star.toChild :: qualifiers ++ [inner.as .declarator])).IsCompound mode := by
  have front : Child.LackDeclarators (star.toChild :: qualifiers ++ []) := by
    rw [List.append_nil]
    exact List.forall_mem_cons.mpr ⟨nofun, lack⟩
  have parts : star.toChild :: qualifiers ++ [inner.as .declarator] =
      star.toChild :: qualifiers ++ declaratorChild (some inner) ++ [] := by
    rw [List.append_nil, declaratorChild]
  cases abstract : inner.isAbstract with
  | true => exact .ofParts parts front (.some names) mode.mem_all rfl rfl abstract.symm nofun
  | false => exact .ofParts parts front (.some names) mode.mem_all rfl rfl abstract.symm nofun

/-- A pointer to nothing. -/
theorem hollowPointer {star : Token} {qualifiers : List Child} (lack : Child.LackDeclarators qualifiers)
    (free : mode.requiresName = false) :
    (make .abstractPointerDeclarator (star.toChild :: qualifiers)).IsCompound mode := by
  have front : Child.LackDeclarators (star.toChild :: qualifiers ++ []) := by
    rw [List.append_nil]
    exact List.forall_mem_cons.mpr ⟨nofun, lack⟩
  exact .ofParts (by simp [declaratorChild]) front (.none free) mode.mem_all rfl rfl rfl nofun

theorem suffix {hollow concrete : NodeKind} (admits : mode.Admits found)
    (kinds : hollow = .abstractArrayDeclarator ∧ concrete = .arrayDeclarator ∨
      hollow = .abstractFunctionDeclarator ∧ concrete = .functionDeclarator)
    (lack : Child.LackDeclarators rest) :
    (make (if suffixIsAbstract found then hollow else concrete)
      (declaratorChild found ++ rest)).IsCompound mode := by
  have tight : ∀ inner ∈ found, inner.kind.isPointer = false := fun inner here =>
    NodeKind.isPointer_of_isDirect (admits.direct inner here)
  have parts : declaratorChild found ++ rest = [] ++ declaratorChild found ++ rest := rfl
  obtain ⟨rfl, rfl⟩ | ⟨rfl, rfl⟩ := kinds
  all_goals
    cases abstract : suffixIsAbstract found with
    | true => exact .ofParts parts lack admits.toAllows mode.mem_all rfl rfl abstract.symm fun _ => tight
    | false => exact .ofParts parts lack admits.toAllows mode.mem_all rfl rfl abstract.symm fun _ => tight

theorem array {size : List Child} (admits : mode.Admits found) (lack : Child.LackDeclarators size) :
    (make (if suffixIsAbstract found then .abstractArrayDeclarator else .arrayDeclarator)
      (declaratorChild found ++ [opener.toChild] ++ size ++ [closer.toChild])).IsCompound mode := by
  have rest : Child.LackDeclarators (opener.toChild :: (size ++ [closer.toChild])) := by
    refine List.forall_mem_cons.mpr ⟨nofun, List.forall_mem_append.mpr ⟨lack, ?_⟩⟩
    exact List.forall_mem_singleton.mpr nofun
  simpa using suffix admits (.inl ⟨rfl, rfl⟩) rest

theorem function {list : Node} (admits : mode.Admits found) :
    (make (if suffixIsAbstract found then .abstractFunctionDeclarator else .functionDeclarator)
      (declaratorChild found ++ [list.as .parameters])).IsCompound mode :=
  .suffix admits (.inr ⟨rfl, rfl⟩) (List.forall_mem_singleton.mpr nofun)

theorem parenthesized (names : inner.Names mode) :
    (make (if inner.isAbstract then .abstractParenthesizedDeclarator else .parenthesizedDeclarator)
      [opener, inner, closer]).IsCompound mode := by
  have here : (make (if inner.isAbstract then .abstractParenthesizedDeclarator
      else .parenthesizedDeclarator) [opener, inner, closer]).Names mode := by
    cases abstract : inner.isAbstract with
    | true => exact names_of_none (names.abstract abstract).1 rfl rfl
    | false => exact names.around rfl abstract.symm
  refine ⟨here, fun _ => ⟨mode, here⟩, fun _ other within => ?_,
    fun _ => List.forall_mem_singleton.mpr ⟨mode, names⟩, fun suffix => ?_⟩
  · simp [Node.as, Node.toChild, Token.toChild] at within
  · rw [kind_make] at suffix
    split at suffix <;> cases suffix

/-- A declarator with an initializer. -/
theorem init (names : inner.Names .named) (lack : Child.LackDeclarators rest) :
    (make .initDeclarator (inner.as .declarator :: rest)).IsCompound .named := by
  have concrete : inner.isAbstract = false := by
    cases abstract : inner.isAbstract with
    | false => rfl
    | true => cases (names.abstract abstract).1
  have parts : inner.as .declarator :: rest = [] ++ declaratorChild (some inner) ++ rest := rfl
  exact .ofParts parts lack (.some names) (List.mem_singleton_self _) rfl rfl concrete.symm nofun

end IsCompound

section Moved

variable (place : Span → Span)

theorem innerDeclarator?_mapSpan (node : Node) :
    (node.mapSpan place).innerDeclarator? = node.innerDeclarator?.map (·.mapSpan place) := by
  simp only [innerDeclarator?, kind_mapSpan, fieldNode?_mapSpan, childNodes, children_mapSpan,
    nodes_mapSpanOfChildren, List.head?_map]
  split
  · rfl
  · split <;> rfl

theorem nameNode?_mapSpan (node : Node) :
    (node.mapSpan place).nameNode? = node.nameNode?.map (·.mapSpan place) := by
  induction node using declarator_induction with
  | step node ih =>
    have moved := innerDeclarator?_mapSpan place node
    cases inside : node.innerDeclarator? with
    | none =>
      rw [inside] at moved
      rw [nameNode?_of_none moved, nameNode?_of_none inside, kind_mapSpan]
      split <;> rfl
    | some inner =>
      rw [inside] at moved
      rw [nameNode?_of_inner moved, nameNode?_of_inner inside]
      exact ih inner inside

theorem mapSpan_ofToken (kind : NodeKind) (token : Token) :
    (ofToken kind token).mapSpan place = .ofToken kind (token.mapSpan place) :=
  (Child.node.inj (Child.mapSpan_ofToken place kind token)).2

variable {place}

theorem Names.mapSpan (names : node.Names mode) : (node.mapSpan place).Names mode := by
  have same : (node.mapSpan place).isAbstract = node.isAbstract := by rw [isAbstract, kind_mapSpan, isAbstract]
  refine ⟨fun abstract => ?_, fun named => ?_⟩
  · obtain ⟨free, none⟩ := names.abstract (same ▸ abstract)
    exact ⟨free, by rw [nameNode?_mapSpan, none]; rfl⟩
  · obtain ⟨allowed, token, name, identifier⟩ := names.named (same ▸ named)
    refine ⟨allowed, token.mapSpan place, ?_, identifier⟩
    rw [nameNode?_mapSpan, name, Option.map_some, mapSpan_ofToken]

theorem exists_of_as_mem {field : Field} (member : inner.as field ∈ (node.mapSpan place).children) :
    ∃ before : Node, before.as field ∈ node.children ∧ inner = before.mapSpan place := by
  rw [children_mapSpan, mapSpanOfChildren_eq] at member
  obtain ⟨child, listed, moved⟩ := List.mem_map.mp member
  cases child with
  | token => cases moved
  | node other before =>
    cases moved
    exact ⟨before, listed, rfl⟩

theorem HasDeclarators.mapSpan (has : node.HasDeclarators) : (node.mapSpan place).HasDeclarators where
  own compound := by
    rw [kind_mapSpan] at compound
    exact (has.own compound).imp fun _ names => names.mapSpan
  fields some inner member := by
    rw [kind_mapSpan] at some ⊢
    obtain ⟨before, listed, rfl⟩ := exists_of_as_mem member
    obtain ⟨mode, among, names⟩ := has.fields some before listed
    exact ⟨mode, among, names.mapSpan⟩
  parentheses isParenthesized := by
    rw [kind_mapSpan] at isParenthesized
    rw [childNodes, children_mapSpan, nodes_mapSpanOfChildren]
    refine List.forall_mem_map.mpr fun before listed => ?_
    exact (has.parentheses isParenthesized before listed).imp fun _ names => names.mapSpan
  tight suffix inner member := by
    rw [kind_mapSpan] at suffix
    obtain ⟨before, listed, rfl⟩ := exists_of_as_mem member
    rw [kind_mapSpan]
    exact has.tight suffix before listed

end Moved

end Node

end OpenCLTree

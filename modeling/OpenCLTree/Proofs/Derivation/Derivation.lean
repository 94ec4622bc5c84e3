import OpenCLTree.Proofs.Derivation.Leads
import OpenCLTree.Proofs.Derivation.Stretch
import OpenCLTree.Proofs.Grammar.Builds

namespace OpenCLTree

namespace Child

/-- A child without its field, unless it is a name. -/
def tagged : Child → Child
  | .token _ leaf => .token none leaf
  | .node field inner => .node (if field = some .name then some .name else none) inner

@[simp]
theorem tagged_toChild_token (leaf : Token) : leaf.toChild.tagged = leaf.toChild := rfl

@[simp]
theorem tagged_toChild_node (inner : Node) : inner.toChild.tagged = inner.toChild := rfl

@[simp]
theorem tagged_as_token (leaf : Token) (field : Field) : (leaf.as field).tagged = leaf.toChild := rfl

@[simp]
theorem tagged_as_node (inner : Node) (field : Field) :
    (inner.as field).tagged = if field = .name then inner.as .name else inner.toChild := by
  simp only [Node.as, tagged, Option.some.injEq, Node.toChild]
  split <;> rfl

@[simp]
theorem tagged_comp_token : tagged ∘ Token.toChild = Token.toChild := rfl

@[simp]
theorem tagged_comp_node : tagged ∘ Node.toChild = Node.toChild := rfl

@[simp]
theorem bare_tagged (child : Child) : child.tagged.bare = child.bare := by
  cases child <;> rfl

@[simp]
theorem bare_comp_tagged : bare ∘ tagged = bare := funext bare_tagged

@[simp]
theorem nodes_tagged (children : List Child) : nodes (children.map tagged) = nodes children := by
  rw [← nodes_bare, List.map_map, bare_comp_tagged, nodes_bare]

@[simp]
theorem tokens_tagged (children : List Child) : tokens (children.map tagged) = tokens children := by
  rw [← tokens_bare, List.map_map, bare_comp_tagged, tokens_bare]

end Child

/-- What a value stands for as children that have lost their fields. -/
def parts {α : Type} [HasChildren α] (value : α) : List Child :=
  (HasChildren.children value).map Child.tagged

@[simp]
theorem parts_unit (value : Unit) : parts value = [] := rfl

@[simp]
theorem parts_token (token : Token) : parts token = [token.toChild] := rfl

@[simp]
theorem parts_node (node : Node) : parts node = [node.toChild] := rfl

@[simp]
theorem parts_child (child : Child) : parts child = [child.tagged] := rfl

@[simp]
theorem parts_children (children : List Child) : parts children = children.map Child.tagged := by
  simp [parts, HasChildren.children]

@[simp]
theorem parts_tokens (tokens : List Token) : parts tokens = tokens.map Token.toChild := by
  induction tokens with
  | nil => rfl
  | cons token rest ih => exact congrArg (token.toChild :: ·) ih

@[simp]
theorem parts_nodes (nodes : List Node) : parts nodes = nodes.map Node.toChild := by
  induction nodes with
  | nil => rfl
  | cons node rest ih => exact congrArg (node.toChild :: ·) ih

theorem parts_concat {α : Type} [HasChildren α] (values : List α) (value : α) :
    parts (values ++ [value]) = parts values ++ parts value := by
  simp [parts, HasChildren.children]

@[simp]
theorem parts_specifiers (specifiers : Specifiers) :
    parts specifiers = specifiers.children.map Child.tagged := rfl

@[simp]
theorem parts_declared (declared : Declared) :
    parts declared = declared.declarator.toChild :: declared.attributes.map Child.tagged := rfl

@[simp]
theorem parts_parenthesizedType (parts' : ParenthesizedType) :
    parts parts' = [parts'.opener.toChild, parts'.type.toChild, parts'.closer.toChild] := rfl

@[simp]
theorem parts_none {α : Type} [HasChildren α] : parts (none : Option α) = [] := rfl

@[simp]
theorem parts_some {α : Type} [HasChildren α] (value : α) : parts (some value) = parts value :=
  rfl

namespace NodeKind

theorem roleOf_of_none {parent : NodeKind} (binding : parent.bindingField? = none)
    (plain : parent.isDefinition = false) (field : Option Field) (kind : NodeKind) :
    parent.roleOf field kind = .attribute ∨ parent.roleOf field kind = .other := by
  unfold roleOf
  rw [binding, plain]
  split
  · exact .inl rfl
  · cases field <;> simp

end NodeKind

namespace Node

variable {kind : NodeKind} {children : List Child} {before after : Scopes} {sort : NameSort}
  {tokens : List Token}

/-- A node that is neither an error nor an access. -/
theorem shaped_of_apart (leaves : ∀ leaf ∈ Child.tokens children, leaf.kind ≠ .swizzle)
    (apart : kind ≠ .error ∧ kind ≠ .fieldExpression ∧ kind ≠ .swizzleAccess)
    (classified : kind.isDeclaration = true → (make kind children).IsClassified)
    (name : kind.isName = true → ∃ token, children = [Token.toChild token])
    (line : kind.isLine = true → ∃ marker line, IsLine tokens marker line ∧
      (make kind children).OfLine marker line) : (make kind children).Shaped tokens where
  classified := classified
  name := name
  accesses := ⟨fun swizzle => absurd swizzle apart.2.2, fun member => absurd member apart.2.1,
    fun _ _ => leaves⟩
  braces isError := absurd isError apart.1
  line := line

theorem shaped_of_isCommon (leaves : ∀ leaf ∈ Child.tokens children, leaf.kind ≠ .swizzle)
    (common : kind.isCommon = true)
    (name : kind.isName = true → ∃ token, children = [Token.toChild token]) :
    (make kind children).Shaped tokens := by
  simp only [NodeKind.isCommon, Bool.and_eq_true, Bool.not_eq_true', bne_iff_ne] at common
  obtain ⟨⟨⟨⟨proper, noDeclaration⟩, member⟩, swizzle⟩, noLine⟩ := common
  exact shaped_of_apart leaves ⟨proper, member, swizzle⟩
    (fun declaration => by cases noDeclaration.symm.trans declaration) name
    fun line => by cases noLine.symm.trans line

/-- A node that is no leaf has no name to hold. -/
theorem shaped_of_common (leaves : ∀ leaf ∈ Child.tokens children, leaf.kind ≠ .swizzle)
    (common : kind.isCommon = true) (noName : kind.isName = false) : (make kind children).Shaped tokens :=
  shaped_of_isCommon leaves common fun name => by cases noName.symm.trans name

theorem shaped_of_classified (leaves : ∀ leaf ∈ Child.tokens children, leaf.kind ≠ .swizzle)
    (declaration : kind.isDeclaration = true) (classified : (make kind children).IsClassified) :
    (make kind children).Shaped tokens := by
  have known : (kind ≠ .error ∧ kind ≠ .fieldExpression ∧ kind ≠ .swizzleAccess) ∧
      kind.isName = false ∧ kind.isLine = false := by
    cases kind <;> first | exact ⟨by decide, rfl, rfl⟩ | cases declaration
  obtain ⟨apart, noName, noLine⟩ := known
  exact shaped_of_apart leaves apart (fun _ => classified) (fun name => by cases noName.symm.trans name)
    fun line => by cases noLine.symm.trans line

theorem shaped_of_line {marker : Token} {line : List Token}
    (leaves : ∀ leaf ∈ Child.tokens children, leaf.kind ≠ .swizzle) (isLine : kind.isLine = true)
    (taken : IsLine tokens marker line) (form : (make kind children).OfLine marker line) :
    (make kind children).Shaped tokens := by
  have known : (kind ≠ .error ∧ kind ≠ .fieldExpression ∧ kind ≠ .swizzleAccess) ∧
      kind.isDeclaration = false ∧ kind.isName = false := by
    cases kind <;> first | exact ⟨by decide, rfl, rfl⟩ | cases isLine
  obtain ⟨apart, noDeclaration, noName⟩ := known
  exact shaped_of_apart leaves apart (fun declaration => by cases noDeclaration.symm.trans declaration)
    (fun name => by cases noName.symm.trans name) fun _ => ⟨marker, line, taken, form⟩

theorem shaped_of_token {token : Token} (leaf : token.kind ≠ .swizzle) (common : kind.isCommon = true) :
    (ofToken kind token).Shaped tokens :=
  shaped_of_isCommon (List.forall_mem_singleton.mpr leaf) common fun _ => ⟨token, rfl⟩

/-- What the way through a node does to the names in scope, if the node declares none itself. -/
theorem walks_of_resolves (closed : kind.opensScope = false) (binding : kind.bindingField? = none)
    (plain : kind.isDefinition = false) (resolves : Resolves kind.isBlock before children after) :
    (make kind children).Walks sort before after :=
  walks_make closed (resolves.reaches fun field inner _ =>
    NodeKind.roleOf_of_none binding plain field inner.kind)

theorem walks_scope_of_resolves (opens : kind.opensScope = true) (binding : kind.bindingField? = none)
    (plain : kind.isDefinition = false)
    (resolves : Resolves kind.isBlock before.enter children after) :
    (make kind children).Walks sort before after.leave :=
  walks_scope opens (resolves.reaches fun field inner _ =>
    NodeKind.roleOf_of_none binding plain field inner.kind)

/-- Only types and calls use names. -/
theorem usesNames_of_other {node : Node} {field : Option Field} (unused : node.kind.usesNames = false) :
    node.UsesNames false field before after := by
  simp only [NodeKind.usesNames, Bool.or_eq_false_iff, beq_eq_false_iff_ne] at unused
  obtain ⟨⟨type, call⟩, builtin⟩ := unused
  exact ⟨fun same => absurd same type, fun inBlock => absurd inBlock (by decide),
    fun same => absurd same call, fun same => absurd same builtin⟩

end Node

/-- The names in scope change as the children say that have been read, if there is no error among
them. -/
structure Derivation (tokens : List Token) (first : GrammarState) (children : List Child)
    (last : GrammarState) : Prop extends Stretch tokens first children last where
  resolves : Node.errors (Child.nodes children) = [] →
    Resolves false first.scopes children last.scopes

theorem Resolves.single {inBlock : Bool} {before after : Scopes} {field : Option Field} {node : Node}
    (resolves : Resolves inBlock before [.node field node] after) :
    (∀ sort, node.Walks sort before after) ∧ node.UsesNames inBlock field before after := by
  cases resolves with
  | node walks uses rest =>
    cases rest
    exact ⟨walks, uses⟩

theorem Resolves.split {inBlock : Bool} {before after : Scopes} {front back : List Child}
    (resolves : Resolves inBlock before (front ++ back) after) :
    ∃ middle, Resolves inBlock before front middle ∧ Resolves inBlock middle back after := by
  induction front generalizing before with
  | nil => exact ⟨before, .nothing before, resolves⟩
  | cons child rest ih =>
    cases resolves with
    | token later =>
      obtain ⟨middle, front, back⟩ := ih later
      exact ⟨middle, .token front, back⟩
    | node walks uses later =>
      obtain ⟨middle, front, back⟩ := ih later
      exact ⟨middle, .node walks uses front, back⟩

/-- A child asks no less for names if it loses its field. -/
theorem Resolves.of_tagged {before after : Scopes} {children : List Child}
    (resolves : Resolves false before (children.map Child.tagged) after) :
    Resolves false before children after := by
  induction children generalizing before with
  | nil => exact resolves
  | cons child rest ih =>
    cases child with
    | token field leaf =>
      cases resolves with
      | token later => exact .token (ih later)
    | node field inner =>
      cases resolves with
      | node walks uses later =>
        refine .node walks ⟨fun same other => ?_, nofun, uses.call, uses.builtin⟩ (ih later)
        exact uses.type same (by rw [if_neg other]; decide)

namespace Derivation

variable {tokens : List Token} {first middle last : GrammarState}
  {children front back : List Child} {kind : NodeKind} {token : Token}

theorem still (ready : first.Ready tokens) (cursor : last.cursor = first.cursor)
    (reports : first.reports <+: last.reports) (scopes : last.scopes = first.scopes) :
    Derivation tokens first [] last where
  toStretch := .still ready cursor reports (scopes ▸ .refl _)
  resolves _ := scopes ▸ .nothing _

theorem nothing (ready : first.Ready tokens) : Derivation tokens first [] first :=
  .still ready rfl List.prefix_rfl rfl

theorem join (before : Derivation tokens first front middle)
    (after : Derivation tokens middle back last) : Derivation tokens first (front ++ back) last where
  toStretch := before.toStretch.join after.toStretch
  resolves proper := by
    rw [Child.nodes_append, Node.errors_append, List.append_eq_nil_iff] at proper
    exact (before.resolves proper.1).append (after.resolves proper.2)

theorem report (sofar : Derivation tokens first children last) (error : ParseError) :
    Derivation tokens first children (last.report error) := by
  have reported : Derivation tokens last [] (last.report error) :=
    .still sofar.ready rfl (List.prefix_append _ _) rfl
  simpa using sofar.join reported

/-- The current token, if it is taken as what it is by itself. -/
theorem pass {rest : List Word} (ready : first.Ready tokens)
    (read : Word.read? .normal first.cursor.rest = some (token, rest)) :
    Derivation tokens first [token.toChild] (first.pass token rest) := by
  have current : first.cursor.peek? 0 = some token := by
    rw [Cursor.peek?, ready.mode, Word.peek?, read]
    rfl
  obtain ⟨readyAfter, covers⟩ := ready.pass read
  exact {
    ready := readyAfter
    reports := List.prefix_rfl
    scopes := .refl _
    plain := List.forall_mem_singleton.mpr (ready.current_kind current)
    shaped := by
      rw [Token.toChild, Child.nodes, Child.nodes, Node.preorder_nil]
      exact List.forall_mem_nil _
    covers := fun _ => by simpa [Token.toChild] using covers
    resolves := fun _ => .token (.nothing _) }

/-- A node of which it is known how it uses names, and what it does to those in scope. -/
theorem node {field : Option Field} (stretch : Stretch tokens first front last)
    (same : front.map Child.bare = children.map Child.bare)
    (shaped : (Node.make kind children).Shaped tokens) (proper : kind ≠ .error)
    (item : kind ≠ .kernelFunctionDefinition)
    (walks : Node.errors (Child.nodes front) = [] → ∀ sort,
      (Node.make kind children).Walks sort first.scopes last.scopes)
    (uses : Node.errors (Child.nodes front) = [] →
      (Node.make kind children).UsesNames false field first.scopes last.scopes) :
    Derivation tokens first [.node field (Node.make kind children)] last where
  toStretch := ((stretch.refield _ same).wrap shaped proper item).refield _ rfl
  resolves free := by
    rw [Child.nodes, Child.nodes, Node.errors_make proper, ← Child.nodes_bare, ← same,
      Child.nodes_bare] at free
    exact .node (walks free) (uses free) (.nothing _)

/-- A node that declares nothing and opens no scope. -/
theorem inertNode {field : Option Field} (sofar : Derivation tokens first front last)
    (same : front = children.map Child.tagged) (shaped : (Node.make kind children).Shaped tokens)
    (inert : kind.isInert = true)
    (uses : Node.errors (Child.nodes front) = [] →
      (Node.make kind children).UsesNames false field first.scopes last.scopes) :
    Derivation tokens first [.node field (Node.make kind children)] last := by
  have inert := NodeKind.inert_of_isInert inert
  refine .node sofar.toStretch (by simp [same]) shaped inert.proper inert.item (fun free sort => ?_) uses
  refine Node.walks_of_resolves inert.closed inert.free inert.definition ?_
  rw [inert.block]
  exact Resolves.of_tagged (same ▸ sofar.resolves free)

theorem quietNode (sofar : Derivation tokens first front last)
    (same : front = children.map Child.tagged) (quiet : kind.isQuiet = true)
    (shaped : (Node.make kind children).Shaped tokens) :
    Derivation tokens first [(Node.make kind children).toChild] last := by
  simp only [NodeKind.isQuiet, Bool.and_eq_true, Bool.not_eq_true'] at quiet
  exact sofar.inertNode same shaped quiet.1.1 fun _ => Node.usesNames_of_other quiet.2

/-- A node that asks nothing of its children. -/
theorem wrap (sofar : Derivation tokens first front last) (same : front = children.map Child.tagged)
    (loose : kind.isLoose = true) :
    Derivation tokens first [(Node.make kind children).toChild] last := by
  simp only [NodeKind.isLoose, Bool.and_eq_true, Bool.not_eq_true'] at loose
  have plain : ∀ leaf ∈ Child.tokens children, leaf.kind ≠ .swizzle := by
    rw [← Child.tokens_tagged, ← same]
    exact sofar.plain
  have quiet := NodeKind.quiet_of_isQuiet loose.1
  exact sofar.quietNode same loose.1 (Node.shaped_of_common plain quiet.common loose.2)

/-- A node around a token. -/
theorem leaf (sofar : Derivation tokens first [token.toChild] last) (kind : NodeKind)
    (quiet : kind.isQuiet = true) :
    Derivation tokens first [(Node.ofToken kind token).toChild] last := by
  have common := (NodeKind.quiet_of_isQuiet quiet).common
  exact sofar.quietNode rfl quiet (Node.shaped_of_token (sofar.plain token List.mem_cons_self) common)

/-- A type name that stands for a type where it is. -/
theorem typeName (sofar : Derivation tokens first [token.toChild] last)
    (isType : first.scopes.isType token.text = true) :
    Derivation tokens first [(Node.ofToken .typeIdentifier token).toChild] last := by
  refine sofar.inertNode rfl (Node.shaped_of_common sofar.plain rfl rfl) rfl fun _ => ?_
  refine ⟨fun _ _ leaf member => ?_, nofun, nofun, nofun⟩
  rw [Node.leaves_make, Token.toChild, Node.leavesOfChildren_token, Node.leavesOfChildren_nil,
    List.mem_singleton] at member
  rwa [member]

/-- The tag of a type need not stand for a type. -/
theorem typeTag (sofar : Derivation tokens first [token.toChild] last) :
    Derivation tokens first [(Node.ofToken .typeIdentifier token).as .name] last := by
  refine sofar.inertNode rfl (Node.shaped_of_common sofar.plain rfl rfl) rfl fun _ => ?_
  exact ⟨fun _ other => absurd rfl other, nofun, nofun, nofun⟩

/-- A token among the children may as well stand in a node of its own. -/
theorem leafAt (front : List Child) (sofar : Derivation tokens first (front ++ token.toChild :: back) last)
    (kind : NodeKind) (quiet : kind.isQuiet = true) :
    Derivation tokens first (front ++ (Node.ofToken kind token).toChild :: back) last := by
  have quiet := NodeKind.quiet_of_isQuiet quiet
  have plain := sofar.plain
  simp only [Token.toChild, Child.tokens_append, Child.tokens, List.forall_mem_append,
    List.forall_mem_cons] at plain
  obtain ⟨before, here, after⟩ := plain
  have shaped := sofar.shaped
  simp only [Token.toChild, Child.nodes_append, Child.nodes, Node.preorder_append,
    List.forall_mem_append] at shaped
  have leaf : (Node.ofToken kind token).Shaped tokens :=
    Node.shaped_of_token here quiet.common
  have errors : Node.errors (Child.nodes (front ++ (Node.ofToken kind token).toChild :: back)) =
      Node.errors (Child.nodes (front ++ token.toChild :: back)) := by
    rw [Child.nodes_append, Child.nodes_append, Node.errors_append, Node.errors_append, Node.toChild,
      Child.nodes, Token.toChild, Child.nodes, ← List.singleton_append, Node.errors_append,
      Node.ofToken, Node.errors_make quiet.proper, Token.toChild, Child.nodes, Child.nodes,
      Node.errors_nil, List.nil_append]
  refine ⟨⟨sofar.toOnward, ?_, ?_, fun free => ?_⟩, fun free => ?_⟩
  · simp only [Node.toChild, Child.tokens_append, Child.tokens, List.forall_mem_append]
    exact ⟨before, after⟩
  · simp only [Node.toChild, Child.nodes_append, Child.nodes, Node.preorder_append,
      Node.preorder_cons, List.forall_mem_append]
    refine ⟨shaped.1, ?_, shaped.2⟩
    rw [Node.ofToken, Node.descendants_make]
    exact List.forall_mem_cons.mpr ⟨⟨leaf, quiet.item⟩, by simp [Token.toChild, Child.nodes, Node.preorder_nil]⟩
  · simpa [Node.toChild, Node.ofToken, Token.toChild] using sofar.covers (errors ▸ free)
  · obtain ⟨middle, atFront, atBack⟩ := (sofar.resolves (errors ▸ free)).split
    refine atFront.append ?_
    cases atBack with
    | token later =>
      refine .node (fun sort => ?_) (Node.usesNames_of_other quiet.unused) later
      exact Node.walks_of_resolves quiet.closed quiet.free quiet.definition (.token (.nothing _))

/-- Of an error node nothing is known but how it ends. -/
theorem error (leaves : List Token) (keeps : Onward tokens first last)
    (braces : (Node.make .error (leaves.map Token.toChild)).ClosesBraces tokens) :
    Derivation tokens first [(Node.make .error (leaves.map Token.toChild)).toChild] last := by
  have some : Node.errors (Child.nodes [(Node.make .error (leaves.map Token.toChild)).toChild]) ≠ [] :=
    Node.errors_ne_nil rfl
  refine ⟨⟨keeps, List.forall_mem_nil _, ?_, fun none => absurd none some⟩, fun none => absurd none some⟩
  rw [Node.toChild, Child.nodes, Child.nodes, ← Node.descendants, Node.descendants_make,
    Child.nodes_tokens, Node.preorder_nil]
  have shaped : (Node.make .error (leaves.map Token.toChild)).Shaped tokens := {
    classified := fun declaration => by cases declaration
    name := fun name => by cases name
    accesses := ⟨fun swizzle => (by cases swizzle), fun member => (by cases member),
      fun proper => absurd rfl proper⟩
    braces := braces
    line := fun line => by cases line }
  exact List.forall_mem_singleton.mpr ⟨shaped, by rw [Node.kind_make]; decide⟩

/-- A node may as well be the name of what it stands in. -/
theorem named {node : Node} (sofar : Derivation tokens first [node.toChild] last) :
    Derivation tokens first [node.as .name] last where
  toStretch := sofar.toStretch.refield _ rfl
  resolves free := by
    obtain ⟨walks, uses⟩ := (sofar.resolves free).single
    exact .node walks ⟨fun _ other => absurd rfl other, nofun, uses.call, uses.builtin⟩ (.nothing _)

end Derivation

end OpenCLTree

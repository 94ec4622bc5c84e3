import OpenCLTree.Proofs.Grammar.Specified
import OpenCLTree.Proofs.Derivation.TypeSpecifier

namespace OpenCLTree

namespace Scopes

theorem since_bind (scopes : Scopes) (sort : NameSort) (declarator : Node) :
    scopes.Since (scopes.bind sort declarator) := by
  unfold bind
  split
  · exact scopes.since_declare _ _
  · exact .refl _

end Scopes

/-- The state once a pending name has been declared. -/
def GrammarState.settle (state : GrammarState) (sort : NameSort) (pending : Option Node) :
    GrammarState :=
  state.mapScopes fun scopes => Walk.settle ⟨scopes, pending⟩ sort

theorem GrammarState.since_settle (state : GrammarState) (sort : NameSort) (pending : Option Node) :
    state.scopes.Since (state.settle sort pending).scopes := by
  cases pending with
  | none => exact .refl _
  | some declarator => exact state.scopes.since_bind sort declarator

/-- The kinds of nodes whose children may be declarators, and are no items of a block. -/
structure NodeKind.Declares (kind : NodeKind) : Prop where
  binds : kind.bindingField? = some .declarator
  block : kind.isBlock = false

/-- What some children of a declaration are that have been read on the way from one state to
another, and which of them is the declarator whose name has to be declared next. -/
structure Declaring (tokens : List Token) (sort : NameSort) (first : GrammarState)
    (children : List Child) (pending : Option Node) (last : GrammarState) : Prop
    extends Stretch tokens first children last where
  reaches : Node.errors (Child.nodes children) = [] → ∀ parent : NodeKind, parent.Declares →
    Walk.Reaches parent sort ⟨first.scopes, none⟩ children ⟨last.scopes, pending⟩

namespace Declaring

variable {tokens : List Token} {sort : NameSort} {first middle last : GrammarState}
  {children back : List Child} {pending : Option Node} {declared : Declared}

theorem nothing (ready : first.Ready tokens) : Declaring tokens sort first [] none first where
  toStretch := .still ready rfl List.prefix_rfl (.refl _)
  reaches _ _ _ := .nothing

/-- Children go on with others where the name that is pending has been declared. -/
theorem join {pending' : Option Node} (front : Declaring tokens sort first children pending middle)
    (stretch : Stretch tokens (middle.settle sort pending) back last)
    (reaches : Node.errors (Child.nodes back) = [] → ∀ parent : NodeKind, parent.Declares →
      Walk.Reaches parent sort ⟨middle.scopes, pending⟩ back ⟨last.scopes, pending'⟩) :
    Declaring tokens sort first (children ++ back) pending' last where
  toStretch := by
    have settled : Stretch tokens middle [] (middle.settle sort pending) :=
      .still front.ready rfl List.prefix_rfl (middle.since_settle sort pending)
    exact front.toStretch.join (settled.join stretch)
  reaches free parent declares := by
    rw [Child.nodes_append, Node.errors_append, List.append_eq_nil_iff] at free
    exact (front.reaches free.1 parent declares).append (reaches free.2 parent declares)

/-- A token behind a declarator declares its name. -/
theorem token {leaf : Token} (front : Declaring tokens sort first children pending middle)
    (read : Derivation tokens (middle.settle sort pending) [leaf.toChild] last) :
    Declaring tokens sort first (children ++ [leaf.toChild]) none last := by
  refine front.join read.toStretch fun free parent declares => ?_
  have scopes := (Resolves.tokens_iff [leaf]).mp (read.resolves free)
  rw [scopes]
  exact .token none leaf

/-- Children in fields that do not matter to names. -/
theorem others (front : Declaring tokens sort first children none middle) (back : List Child)
    (read : Derivation tokens middle (back.map Child.tagged) last)
    (fields : ∀ child ∈ back, child.field? ≠ some .declarator ∧ child.field? ≠ some .body) :
    Declaring tokens sort first (children ++ back) none last := by
  refine front.join (read.toStretch.refield _ (by simp)) fun free parent declares => ?_
  have resolves := (read.resolves (by simpa using free)).of_tagged
  rw [← declares.block] at resolves
  refine resolves.reaches fun field inner member => ?_
  obtain ⟨noDeclarator, noBody⟩ := fields _ member
  exact NodeKind.roleOf_other (.inl fun same => noDeclarator (same.trans declares.binds)) noBody _

/-- The name of a declarator is pending behind the attributes that follow. -/
theorem declarator (front : Declaring tokens sort first children none middle)
    (proper : declared.Proper) (read : Derivation tokens middle (parts declared) last) :
    Declaring tokens sort first (children ++ declared.children) (some declared.declarator) last := by
  refine front.join (read.toStretch.refield _ (by simp [Declared.children])) fun free parent declares => ?_
  have resolves := read.resolves (by simpa [Declared.children, Node.as, Node.toChild, Child.nodes] using free)
  have other {kind : NodeKind} (apart : kind.isDeclarator = false) : declared.declarator.kind ≠ kind := by
    rintro rfl
    cases proper.declarator.kind.symm.trans apart
  cases resolves with
  | @node _ after _ _ _ _ walks uses later =>
    have atDeclarator : Walk.Reaches parent sort ⟨middle.scopes, none⟩
        [declared.declarator.as .declarator] ⟨after, some declared.declarator⟩ := by
      refine .declarator declares.binds (other rfl) (other rfl) (walks sort) ?_
      rw [declares.block]
      exact uses.inField _
    have later := later.of_tagged
    rw [← declares.block] at later
    exact atDeclarator.append (later.reaches_pending proper.attributes)

/-- A declarator whose initializer sees its name. -/
theorem initDeclarator {assign : Token} {value : Node} {named assigned : GrammarState}
    (front : Declaring tokens sort first children none middle) (proper : declared.Proper)
    (atName : Derivation tokens middle (parts declared) named)
    (atAssign : Derivation tokens (named.settle sort (some declared.declarator)) [assign.toChild] assigned)
    (atValue : Derivation tokens assigned [value.toChild] last) :
    Declaring tokens sort first (children ++
      [(Node.make .initDeclarator (declared.children ++ [assign.toChild, value.as .value])).as
        .declarator]) none last := by
  have inside : Declaring tokens sort middle
      (declared.children ++ [assign.toChild, value.as .value]) none last := by
    have settled := ((nothing front.ready).declarator proper atName).token atAssign
    simpa using settled.others [value.as .value] (by simpa using atValue)
      (by simp [Node.as, Child.field?])
  have shaped : (Node.make .initDeclarator (declared.children ++ [assign.toChild, value.as .value])).Shaped
      tokens := Node.shaped_of_common inside.plain rfl rfl
  refine front.join ((inside.toStretch.wrap shaped (by decide) (by decide)).refield _ rfl) fun free parent declares => ?_
  have proper : NodeKind.initDeclarator ≠ .error := by decide
  rw [Node.as, Child.nodes, Child.nodes, Node.errors_make proper] at free
  refine .other (NodeKind.roleOf_init parent) ?_ ?_
  · exact Node.walks_make rfl (inside.reaches free .initDeclarator ⟨rfl, rfl⟩)
  · rw [declares.block]
    exact Node.usesNames_of_other rfl

/-- A declaration of the names that its children declare. -/
theorem wrap {kind : NodeKind} (inside : Declaring tokens sort first children none last)
    (declaration : kind = .declaration ∧ sort = .ordinary ∨ kind = .typeDefinition ∧ sort = .type)
    (classified : (Node.make kind children).IsClassified) :
    Derivation tokens first [(Node.make kind children).toChild] last := by
  have isDeclaration : kind.isDeclaration = true := by
    rcases declaration with ⟨rfl, _⟩ | ⟨rfl, _⟩ <;> rfl
  have shaped : (Node.make kind children).Shaped tokens :=
    Node.shaped_of_classified inside.plain isDeclaration classified
  rcases declaration with ⟨rfl, rfl⟩ | ⟨rfl, rfl⟩
  · refine .node inside.toStretch rfl shaped (by decide) (by decide) (fun free outer => ?_) fun _ =>
      Node.usesNames_of_other rfl
    exact Node.walks_make rfl (inside.reaches free .declaration ⟨rfl, rfl⟩)
  · refine .node inside.toStretch rfl shaped (by decide) (by decide) (fun free outer => ?_) fun _ =>
      Node.usesNames_of_other rfl
    exact Node.walks_make rfl (inside.reaches free .typeDefinition ⟨rfl, rfl⟩)

end Declaring

end OpenCLTree

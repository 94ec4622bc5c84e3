import OpenCLTree.Lexical.Builtin
import OpenCLTree.Grammar.Scopes
import OpenCLTree.Proofs.Tree.Descendants
import OpenCLTree.Syntax.Declarator

namespace OpenCLTree

namespace NodeKind

/-- Whether nodes of a kind are scopes of their own. -/
def opensScope : NodeKind → Bool
  | .compoundStatement | .forStatement => true
  | _ => false

def isDefinition : NodeKind → Bool
  | .functionDefinition | .kernelFunctionDefinition => true
  | _ => false

/-- Whether nodes of a kind hold the items of a block. -/
def isBlock : NodeKind → Bool
  | .compoundStatement | .caseStatement => true
  | _ => false

/-- The field of the children whose names a node brings into scope. -/
def bindingField? : NodeKind → Option Field
  | .declaration | .typeDefinition | .functionDefinition | .kernelFunctionDefinition
  | .initDeclarator => some .declarator
  | .enumerator => some .name
  | _ => none

/-- What the names stand for that a node brings into scope. An initializer does not change what
its declarator declares. -/
def boundSort (outer : NameSort) : NodeKind → NameSort
  | .typeDefinition => .type
  | .initDeclarator => outer
  | _ => .ordinary

end NodeKind

/-- What a child does to the names in scope: an attribute belongs to the declarator in front of
it, a declarator has a name to declare, and the body of a function sees its parameters. -/
inductive ChildRole
  | attribute | declarator | body | other
  deriving DecidableEq

def NodeKind.roleOf (parent : NodeKind) (field : Option Field) (kind : NodeKind) : ChildRole :=
  if kind = .attributeSpecifier then .attribute
  else if field = some .body ∧ parent.isDefinition then .body
  else if field.isSome ∧ field = parent.bindingField? ∧ kind ≠ .initDeclarator then .declarator
  else .other

namespace Scopes

/-- Brings the name of a declarator into scope. -/
def bind (scopes : Scopes) (sort : NameSort) (declarator : Node) : Scopes :=
  match declarator.declaratorName? with
  | some name => scopes.declare name.text sort
  | none => scopes

/-- Opens a scope that holds the parameters of a function. -/
def enterWith (scopes : Scopes) (parameters : List String) : Scopes :=
  parameters.foldl (·.declare · .ordinary) scopes.enter

end Scopes

/-- The names in scope at a place between the children of a node, and the declarator in front of
it whose name is not in scope yet. -/
structure Walk where
  scopes : Scopes
  pending : Option Node

namespace Walk

/-- The names in scope once the pending one is among them. -/
def settle (walk : Walk) (sort : NameSort) : Scopes :=
  match walk.pending with
  | some declarator => walk.scopes.bind sort declarator
  | none => walk.scopes

/-- The names in scope in front of a child. -/
def before (walk : Walk) (sort : NameSort) : ChildRole → Scopes
  | .attribute => walk.scopes
  | _ => walk.settle sort

/-- The names in scope at the start of a child. -/
def inside (walk : Walk) (sort : NameSort) : ChildRole → Scopes
  | .body => (walk.settle sort).enterWith ((walk.pending.map Node.parameterNames).getD [])
  | role => walk.before sort role

/-- The place behind a child, from the names in scope at its end. -/
def behind (walk : Walk) (inner : Node) (last : Scopes) : ChildRole → Walk
  | .attribute => ⟨last, walk.pending⟩
  | .declarator => ⟨last, some inner⟩
  | .body => ⟨last.leave, none⟩
  | .other => ⟨last, none⟩

end Walk

/-- A node that a walk through a tree meets as a child, with the names in scope in front of it and
behind it. -/
structure Visit where
  parent : NodeKind
  field : Option Field
  node : Node
  before : Scopes
  after : Scopes

namespace Node

mutual

/-- Walks through a node: what is met on the way, and the names in scope behind the node. -/
def walk (sort : NameSort) : Node → Scopes → List Visit × Scopes
  | .mk kind _ children, scopes =>
    let own := kind.boundSort sort
    let start := if kind.opensScope then scopes.enter else scopes
    let (visits, last) := walkChildren kind own children ⟨start, none⟩
    (visits, if kind.opensScope then (last.settle own).leave else last.settle own)

/-- Walks over some children of a node in order. -/
def walkChildren (parent : NodeKind) (sort : NameSort) : List Child → Walk → List Visit × Walk
  | [], walk => ([], walk)
  | .token _ _ :: rest, walk => walkChildren parent sort rest ⟨walk.settle sort, none⟩
  | .node field inner :: rest, walk =>
    let role := parent.roleOf field inner.kind
    let (below, last) := inner.walk sort (walk.inside sort role)
    let next := walk.behind inner last role
    let (later, final) := walkChildren parent sort rest next
    (⟨parent, field, inner, walk.before sort role, next.scopes⟩ :: (below ++ later), final)

end

mutual

/-- A walk meets every node once, in the order of the tree. -/
theorem node_walk (sort : NameSort) (node : Node) (scopes : Scopes) :
    (node.walk sort scopes).1.map Visit.node = node.descendants.tail := by
  cases node with
  | mk kind span children =>
    rw [walk, descendants_mk, List.tail_cons]
    exact node_walkChildren kind _ children _

theorem node_walkChildren (parent : NodeKind) (sort : NameSort) (children : List Child) (walk : Walk) :
    (walkChildren parent sort children walk).1.map Visit.node = preorder (Child.nodes children) := by
  match children with
  | [] => rw [walkChildren, Child.nodes, preorder_nil]; rfl
  | .token field leaf :: rest =>
    rw [walkChildren, Child.nodes]
    exact node_walkChildren parent sort rest _
  | .node field inner :: rest =>
    rw [walkChildren, Child.nodes, preorder_cons, descendants_eq]
    dsimp only
    rw [List.map_cons, List.map_append, node_walk sort inner, node_walkChildren parent sort rest,
      descendants_eq]
    rfl

end

/-- All that a walk through a whole tree meets. -/
def visits (root : Node) : List Visit :=
  (root.walk .ordinary Scopes.file).1

theorem node_visits (root : Node) : root.visits.map Visit.node = root.descendants.tail :=
  node_walk _ root _

/-- Whether the first leaf of a node is a name that stands for a type. -/
def BeginsWithType (node : Node) (scopes : Scopes) : Prop :=
  ∃ leaf, node.leaves.head? = some leaf ∧ leaf.kind = .identifier ∧ scopes.isType leaf.text = true

/-- The names of built-in functions that no declaration hides. -/
def IsBuiltin (scopes : Scopes) (name : String) : Prop :=
  (builtinCategory? name).isSome = true ∧ scopes.isOrdinary name = false

/-- Whether a child of a node uses names for what they stand for where it is: as the type of
something only names of types; at the start of an item of a block names of types only if the item
declares something or is labeled; and in calls the names of built-in functions as such if they are
not hidden. -/
structure UsesNames (node : Node) (inBlock : Bool) (field : Option Field) (before after : Scopes) :
    Prop where
  type : node.kind = .typeIdentifier → field ≠ some .name →
    ∀ leaf ∈ node.leaves, before.isType leaf.text = true
  item : inBlock = true → field ≠ some .value → node.BeginsWithType before →
    node.kind = .declaration ∨ node.kind = .typeDefinition ∨ node.kind = .labeledStatement
  call : node.kind = .callExpression → ∀ callee, node.fieldNode? .function = some callee →
    callee.kind = .identifier → ∀ leaf ∈ callee.leaves, ¬ IsBuiltin after leaf.text
  builtin : node.kind = .builtinFunctionCall → ∃ callee, node.fieldNode? .function = some callee ∧
    ∀ leaf ∈ callee.leaves, IsBuiltin after leaf.text

/-- Outside of blocks a node asks for no more in a field than without one. -/
theorem UsesNames.inField {node : Node} {before after : Scopes} (uses : node.UsesNames false none before after)
    (field : Option Field) : node.UsesNames false field before after where
  type same _ := uses.type same (by decide)
  item inBlock := absurd inBlock (by decide)
  call := uses.call
  builtin := uses.builtin

end Node

/-- Whether what a walk meets uses names for what they stand for. -/
def Visit.Resolved (visit : Visit) : Prop :=
  visit.node.UsesNames visit.parent.isBlock visit.field visit.before visit.after

/-- Whether the way over some children leads from one place to another, and all that it meets is
resolved. -/
def Walk.Reaches (parent : NodeKind) (sort : NameSort) (walk : Walk) (children : List Child)
    (next : Walk) : Prop :=
  (Node.walkChildren parent sort children walk).2 = next ∧
    ∀ visit ∈ (Node.walkChildren parent sort children walk).1, visit.Resolved

/-- Whether the way through a node leads from some names in scope to others, and all that it meets
is resolved. -/
def Node.Walks (node : Node) (sort : NameSort) (before after : Scopes) : Prop :=
  (node.walk sort before).2 = after ∧ ∀ visit ∈ (node.walk sort before).1, visit.Resolved

namespace Walk.Reaches

variable {parent : NodeKind} {sort : NameSort} {walk middle next : Walk} {front back : List Child}
  {last : Scopes}

theorem nothing : Reaches parent sort walk [] walk := by
  simp [Reaches, Node.walkChildren]

theorem token (field : Option Field) (leaf : Token) :
    Reaches parent sort walk [.token field leaf] ⟨walk.settle sort, none⟩ := by
  simp [Reaches, Node.walkChildren]

theorem node {field : Option Field} {inner : Node}
    (walks : inner.Walks sort (walk.inside sort (parent.roleOf field inner.kind)) last)
    (uses : inner.UsesNames parent.isBlock field (walk.before sort (parent.roleOf field inner.kind))
      (walk.behind inner last (parent.roleOf field inner.kind)).scopes) :
    Reaches parent sort walk [.node field inner]
      (walk.behind inner last (parent.roleOf field inner.kind)) := by
  obtain ⟨rfl, resolved⟩ := walks
  simp only [Reaches, Node.walkChildren, List.append_nil, true_and]
  exact List.forall_mem_cons.mpr ⟨uses, resolved⟩

theorem append (before : Reaches parent sort walk front middle)
    (after : Reaches parent sort middle back next) :
    Reaches parent sort walk (front ++ back) next := by
  induction front generalizing walk with
  | nil =>
    obtain ⟨rfl, _⟩ := before
    simpa [Node.walkChildren] using after
  | cons child rest ih =>
    obtain ⟨rfl, resolved⟩ := before
    cases child with
    | token field leaf =>
      rw [Node.walkChildren] at resolved after
      have later := ih ⟨rfl, resolved⟩
      unfold Reaches at later ⊢
      rwa [List.cons_append, Node.walkChildren]
    | node field inner =>
      simp only [Node.walkChildren] at resolved after
      obtain ⟨here, others⟩ := List.forall_mem_cons.mp resolved
      obtain ⟨below, others⟩ := List.forall_mem_append.mp others
      have later := ih ⟨rfl, others⟩
      unfold Reaches at later ⊢
      simp only [List.cons_append, Node.walkChildren]
      exact ⟨later.1, List.forall_mem_cons.mpr ⟨here, List.forall_mem_append.mpr ⟨below, later.2⟩⟩⟩

end Walk.Reaches

namespace Node

variable {kind : NodeKind} {sort : NameSort} {children : List Child} {before : Scopes} {last : Walk}

theorem walks_make (closed : kind.opensScope = false)
    (reaches : Walk.Reaches kind (kind.boundSort sort) ⟨before, none⟩ children last) :
    (make kind children).Walks sort before (last.settle (kind.boundSort sort)) := by
  obtain ⟨rfl, resolved⟩ := reaches
  simp only [Walks, make, walk, closed]
  exact ⟨rfl, resolved⟩

theorem walks_scope (opens : kind.opensScope = true)
    (reaches : Walk.Reaches kind (kind.boundSort sort) ⟨before.enter, none⟩ children last) :
    (make kind children).Walks sort before (last.settle (kind.boundSort sort)).leave := by
  obtain ⟨rfl, resolved⟩ := reaches
  simp only [Walks, make, walk, opens]
  exact ⟨rfl, resolved⟩

end Node

/-- How some children change the names in scope where none of them is a declarator or a body in its
parent, and what they use is resolved. -/
inductive Resolves (inBlock : Bool) : Scopes → List Child → Scopes → Prop
  | nothing (scopes : Scopes) : Resolves inBlock scopes [] scopes
  | token {before after : Scopes} {field : Option Field} {leaf : Token} {rest : List Child} :
      Resolves inBlock before rest after → Resolves inBlock before (.token field leaf :: rest) after
  | node {before middle after : Scopes} {field : Option Field} {inner : Node} {rest : List Child} :
      (∀ sort, inner.Walks sort before middle) → inner.UsesNames inBlock field before middle →
      Resolves inBlock middle rest after → Resolves inBlock before (.node field inner :: rest) after

namespace Resolves

variable {inBlock : Bool} {before middle after : Scopes} {front back children : List Child}

theorem append (first : Resolves inBlock before front middle)
    (second : Resolves inBlock middle back after) : Resolves inBlock before (front ++ back) after := by
  induction first with
  | nothing => exact second
  | token _ ih => exact .token (ih second)
  | node walks uses _ ih => exact .node walks uses (ih second)

theorem tokens_iff (leaves : List Token) :
    Resolves inBlock before (leaves.map Token.toChild) after ↔ after = before := by
  constructor
  · intro resolves
    generalize made : leaves.map Token.toChild = children at resolves
    induction resolves generalizing leaves with
    | nothing => rfl
    | token _ ih =>
      obtain ⟨_, rest, rfl, _, same⟩ := List.map_eq_cons_iff.mp made
      exact ih rest same
    | node =>
      obtain ⟨_, _, _, isToken, _⟩ := List.map_eq_cons_iff.mp made
      cases isToken
  · rintro rfl
    induction leaves with
    | nil => exact .nothing _
    | cons leaf rest ih => exact .token ih

/-- The way over such children, from a place where no name is pending. -/
theorem reaches {parent : NodeKind} {sort : NameSort}
    (resolves : Resolves parent.isBlock before children after)
    (roles : ∀ field inner, Child.node field inner ∈ children →
      parent.roleOf field inner.kind = .attribute ∨ parent.roleOf field inner.kind = .other) :
    Walk.Reaches parent sort ⟨before, none⟩ children ⟨after, none⟩ := by
  generalize block : parent.isBlock = inBlock at resolves
  induction resolves with
  | nothing => exact .nothing
  | token _ ih =>
    exact (Walk.Reaches.token _ _).append (ih fun field inner member =>
      roles field inner (List.mem_cons_of_mem _ member))
  | @node before middle after field inner rest walks uses _ ih =>
    have later := ih fun field inner member => roles field inner (List.mem_cons_of_mem _ member)
    subst block
    rcases roles field inner List.mem_cons_self with role | role <;>
    · have here : Walk.Reaches parent sort ⟨before, none⟩ [.node field inner] _ :=
        .node (by rw [role]; exact walks sort) (by rw [role]; exact uses)
      rw [role] at here
      exact here.append later

/-- Attributes leave a pending name pending. -/
theorem reaches_pending {parent : NodeKind} {sort : NameSort} {declarator : Node}
    (resolves : Resolves parent.isBlock before children after)
    (roles : ∀ child ∈ children, ∃ inner : Node, child = inner.toChild ∧
      inner.kind = .attributeSpecifier) :
    Walk.Reaches parent sort ⟨before, some declarator⟩ children ⟨after, some declarator⟩ := by
  generalize block : parent.isBlock = inBlock at resolves
  induction resolves with
  | nothing => exact .nothing
  | token =>
    obtain ⟨_, isNode, _⟩ := roles _ List.mem_cons_self
    cases isNode
  | @node before middle after field inner rest walks uses _ ih =>
    have later := ih fun child member => roles child (List.mem_cons_of_mem _ member)
    obtain ⟨_, same, kind⟩ := roles _ List.mem_cons_self
    cases same
    subst block
    have role : parent.roleOf none inner.kind = .attribute := by rw [kind]; rfl
    have here : Walk.Reaches parent sort ⟨before, some declarator⟩ [.node none inner] _ :=
      .node (by rw [role]; exact walks sort) (by rw [role]; exact uses)
    rw [role] at here
    exact here.append later

end Resolves

end OpenCLTree

import OpenCLTree.Lexical.Token
import OpenCLTree.Syntax.NodeKind

namespace OpenCLTree

mutual

/-- A node of a syntax tree: its kind, the span of its source text and its children in
source order. -/
inductive Node
  | mk (kind : NodeKind) (span : Span) (children : List Child)

/-- A child of a node, with the field it fills if it fills one. The leaves of a tree are
tokens. -/
inductive Child
  | token (field : Option Field) (leaf : Token)
  | node (field : Option Field) (inner : Node)

end

def Token.toChild (leaf : Token) : Child :=
  .token none leaf

def Token.as (leaf : Token) (field : Field) : Child :=
  .token (some field) leaf

def Node.toChild (inner : Node) : Child :=
  .node none inner

def Node.as (inner : Node) (field : Field) : Child :=
  .node (some field) inner

instance : Coe Token Child := ⟨Token.toChild⟩

instance : Coe Node Child := ⟨Node.toChild⟩

namespace Node

def kind : Node → NodeKind
  | .mk kind _ _ => kind

def span : Node → Span
  | .mk _ span _ => span

def children : Node → List Child
  | .mk _ _ children => children

end Node

namespace Child

def field? : Child → Option Field
  | .token field _ => field
  | .node field _ => field

def span : Child → Span
  | .token _ leaf => leaf.span
  | .node _ inner => inner.span

def node? : Child → Option Node
  | .token _ _ => none
  | .node _ inner => some inner

def token? : Child → Option Token
  | .token _ leaf => some leaf
  | .node _ _ => none

/-- The nodes among some children, in order. -/
def nodes : List Child → List Node
  | [] => []
  | .token _ _ :: rest => nodes rest
  | .node _ inner :: rest => inner :: nodes rest

/-- The tokens among some children, in order. -/
def tokens : List Child → List Token
  | [] => []
  | .token _ leaf :: rest => leaf :: tokens rest
  | .node _ _ :: rest => tokens rest

/-- The span from the first child to the last. -/
def extent (children : List Child) : Span :=
  match children.head?, children.getLast? with
  | some first, some last => first.span.cover last.span
  | _, _ => ⟨0, 0⟩

end Child

namespace Node

/-- The node over the text of its children. -/
def make (kind : NodeKind) (children : List Child) : Node :=
  .mk kind (Child.extent children) children

/-- A node around a single token. -/
def ofToken (kind : NodeKind) (leaf : Token) : Node :=
  make kind [leaf]

def childNodes (node : Node) : List Node :=
  Child.nodes node.children

def childTokens (node : Node) : List Token :=
  Child.tokens node.children

def isError (node : Node) : Bool :=
  node.kind == .error

/-- The children that fill a field. -/
def fieldsNamed (node : Node) (field : Field) : List Child :=
  node.children.filter (·.field? == some field)

def field? (node : Node) (field : Field) : Option Child :=
  (node.fieldsNamed field).head?

def fieldNode? (node : Node) (field : Field) : Option Node :=
  (node.field? field).bind Child.node?

def fieldToken? (node : Node) (field : Field) : Option Token :=
  (node.field? field).bind Child.token?

mutual

/-- The number of nodes in a tree. -/
def size : Node → Nat
  | .mk _ _ children => 1 + sizeOfChildren children

def sizeOfChildren : List Child → Nat
  | [] => 0
  | .token _ _ :: rest => sizeOfChildren rest
  | .node _ inner :: rest => inner.size + sizeOfChildren rest

end

mutual

/-- The tokens of a tree in source order. -/
def leaves : Node → List Token
  | .mk _ _ children => leavesOfChildren children

def leavesOfChildren : List Child → List Token
  | [] => []
  | .token _ leaf :: rest => leaf :: leavesOfChildren rest
  | .node _ inner :: rest => inner.leaves ++ leavesOfChildren rest

end

mutual

/-- Moves every span of a tree. -/
def mapSpan (place : Span → Span) : Node → Node
  | .mk kind span children => .mk kind (place span) (mapSpanOfChildren place children)

def mapSpanOfChildren (place : Span → Span) : List Child → List Child
  | [] => []
  | .token field leaf :: rest =>
    .token field { leaf with span := place leaf.span } :: mapSpanOfChildren place rest
  | .node field inner :: rest =>
    .node field (inner.mapSpan place) :: mapSpanOfChildren place rest

end

/-- The number of nodes in a list of trees. -/
def sizeOfAll : List Node → Nat
  | [] => 0
  | node :: rest => node.size + sizeOfAll rest

theorem sizeOfAll_append (front back : List Node) :
    sizeOfAll (front ++ back) = sizeOfAll front + sizeOfAll back := by
  induction front with
  | nil => simp [sizeOfAll]
  | cons node rest ih => simp only [List.cons_append, sizeOfAll, ih, Nat.add_assoc]

theorem sizeOfAll_nodes (children : List Child) :
    sizeOfAll (Child.nodes children) = sizeOfChildren children := by
  induction children with
  | nil => rfl
  | cons child rest ih => cases child <;> simp [Child.nodes, sizeOfAll, sizeOfChildren, ih]

/-- The nodes of a list of trees, each tree from its root down and its children in order. A
worklist holds the trees still to be visited. -/
def preorder : List Node → List Node
  | [] => []
  | .mk kind span children :: pending =>
    .mk kind span children :: preorder (Child.nodes children ++ pending)
termination_by pending => sizeOfAll pending
decreasing_by
  simp only [sizeOfAll_append, sizeOfAll_nodes, sizeOfAll, size]
  omega

/-- The node and all nodes below it. -/
def descendants (node : Node) : List Node :=
  preorder [node]

def find? (node : Node) (kind : NodeKind) : Option Node :=
  node.descendants.find? (·.kind == kind)

def findAll (node : Node) (kind : NodeKind) : List Node :=
  node.descendants.filter (·.kind == kind)

def hasError (node : Node) : Bool :=
  node.descendants.any isError

/-- The fields in use, in the order of their first use, with the indices of the children
that fill them. -/
def fieldTable (node : Node) : List (Field × List Nat) :=
  let named := node.children.zipIdx.filterMap fun (child, index) =>
    child.field?.map fun field => (field, index)
  (named.map (·.1)).eraseDups.map fun field =>
    (field, (named.filter (·.1 == field)).map (·.2))

def fieldNames (node : Node) : List Field :=
  (node.children.filterMap Child.field?).eraseDups

end Node

end OpenCLTree

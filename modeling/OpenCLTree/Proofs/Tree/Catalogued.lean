import OpenCLTree.Proofs.Tree.Operands

namespace OpenCLTree

/-- Whether the kind of a node lists every field that its children fill. -/
def Node.IsListed (node : Node) : Prop :=
  ∀ child ∈ node.children, ∀ field ∈ child.field?, node.kind.hasField field = true

/-- Whether a node and all nodes below it have listed fields alone. -/
def Node.Catalogued (node : Node) : Prop :=
  ∀ inner ∈ node.descendants, inner.IsListed

/-- The same, where each `if` among these nodes has a further property. -/
def Node.CataloguedWith (branch : Node → Prop) (node : Node) : Prop :=
  ∀ inner ∈ node.descendants, inner.IsListed ∧ (inner.kind = .ifStatement → branch inner)

/-- Whether children can stand in a node that lists some fields, if nodes have a property. -/
def Child.Fill (holds : Node → Prop) (fields : List Field) (children : List Child) : Prop :=
  (∀ child ∈ children, ∀ field ∈ child.field?, field ∈ fields) ∧ ∀ inner ∈ nodes children, holds inner

/-- Whether children can stand in such a node of a tree that is catalogued with a further property. -/
abbrev Child.FillWith (branch : Node → Prop) : List Field → List Child → Prop :=
  Child.Fill (Node.CataloguedWith branch)

namespace Child

variable {holds : Node → Prop} {fields : List Field} {children rest : List Child} {leaf : Token}
  {inner : Node} {field : Field}

theorem Fill.mono {more : List Field} (fill : Fill holds fields children) (subset : fields ⊆ more) :
    Fill holds more children :=
  ⟨fun child member field fills => subset (fill.1 child member field fills), fill.2⟩

/-- Children that fill other fields. -/
theorem Fill.filter_eq_nil (fill : Fill holds fields children) (other : field ∉ fields) :
    children.filter (·.field? == some field) = [] := by
  rw [List.filter_eq_nil_iff]
  intro child member
  rw [beq_iff_eq]
  exact fun fills => other (fill.1 child member field fills)

@[simp]
theorem fill_nil : Fill holds fields [] :=
  ⟨List.forall_mem_nil _, List.forall_mem_nil _⟩

theorem fill_cons {child : Child} :
    Fill holds fields (child :: rest) ↔ ((∀ field ∈ child.field?, field ∈ fields) ∧
      ∀ inner ∈ child.node?, holds inner) ∧ Fill holds fields rest := by
  have first : (∀ inner ∈ nodes (child :: rest), holds inner) ↔
      (∀ inner ∈ child.node?, holds inner) ∧ ∀ inner ∈ nodes rest, holds inner := by
    cases child <;> simp [nodes, node?]
  unfold Fill
  rw [List.forall_mem_cons, first]
  exact and_and_and_comm

@[simp]
theorem fill_token : Fill holds fields (leaf.toChild :: rest) ↔ Fill holds fields rest := by
  simp [fill_cons, Token.toChild, field?, node?]

@[simp]
theorem fill_tokenAs :
    Fill holds fields (leaf.as field :: rest) ↔ field ∈ fields ∧ Fill holds fields rest := by
  simp [fill_cons, Token.as, field?, node?]

@[simp]
theorem fill_node :
    Fill holds fields (inner.toChild :: rest) ↔ holds inner ∧ Fill holds fields rest := by
  simp [fill_cons, Node.toChild, field?, node?]

@[simp]
theorem fill_nodeAs : Fill holds fields (inner.as field :: rest) ↔
    (field ∈ fields ∧ holds inner) ∧ Fill holds fields rest := by
  simp [fill_cons, Node.as, field?, node?]

@[simp]
theorem fill_append {front back : List Child} :
    Fill holds fields (front ++ back) ↔ Fill holds fields front ∧ Fill holds fields back := by
  induction front with
  | nil => simp
  | cons child rest ih => simp only [List.cons_append, fill_cons, ih, and_assoc]

@[simp]
theorem fill_tokens (leaves : List Token) : Fill holds fields (leaves.map Token.toChild) := by
  induction leaves with
  | nil => exact fill_nil
  | cons leaf rest ih => exact fill_token.mpr ih

@[simp]
theorem fill_nodes {inner : List Node} :
    Fill holds fields (inner.map Node.toChild) ↔ ∀ node ∈ inner, holds node := by
  induction inner with
  | nil => simp
  | cons node rest ih => simp [ih]

end Child

theorem NodeKind.ne_ifStatement_of_fields {kind : NodeKind} (lacks : .consequence ∉ kind.fields) :
    kind ≠ .ifStatement := by
  rintro rfl
  exact lacks (by decide)

namespace Node

theorem forall_mem_preorder {holds : Node → Prop} {nodes : List Node} :
    (∀ inner ∈ preorder nodes, holds inner) ↔
      ∀ node ∈ nodes, ∀ inner ∈ node.descendants, holds inner := by
  constructor
  · exact fun everywhere node member inner below => everywhere inner (mem_preorder member below)
  · intro each inner member
    obtain ⟨node, listed, below⟩ := exists_of_mem_preorder member
    exact each node listed inner below

theorem catalogued_mk {kind : NodeKind} {span : Span} {children : List Child} :
    (mk kind span children).Catalogued ↔ Child.Fill Catalogued kind.fields children := by
  unfold Catalogued
  rw [descendants_mk, List.forall_mem_cons, forall_mem_preorder]
  simp [IsListed, Child.Fill, Node.children, Node.kind, NodeKind.hasField]

section CataloguedWith

variable {branch : Node → Prop} {kind : NodeKind} {children : List Child}

theorem cataloguedWith_make_iff : (make kind children).CataloguedWith branch ↔
    (kind = .ifStatement → branch (make kind children)) ∧
      Child.Fill (CataloguedWith branch) kind.fields children := by
  unfold CataloguedWith
  rw [descendants_make, List.forall_mem_cons, forall_mem_preorder]
  simp only [IsListed, Child.Fill, children_make, kind_make, NodeKind.hasField, List.contains_iff_mem]
  exact ⟨fun ⟨⟨listed, atIf⟩, below⟩ => ⟨atIf, listed, below⟩,
    fun ⟨atIf, listed, below⟩ => ⟨⟨listed, atIf⟩, below⟩⟩

@[simp]
theorem cataloguedWith_make (other : kind ≠ .ifStatement) :
    (make kind children).CataloguedWith branch ↔
      Child.Fill (CataloguedWith branch) kind.fields children := by
  rw [cataloguedWith_make_iff, and_iff_right fun isIf => absurd isIf other]

@[simp]
theorem cataloguedWith_ofToken (leaf : Token) (other : kind ≠ .ifStatement) :
    (ofToken kind leaf).CataloguedWith branch :=
  (cataloguedWith_make other).mpr (Child.fill_token.mpr Child.fill_nil)

end CataloguedWith

variable {node : Node}

/-- The fields of a node do not depend on where it stands. -/
theorem IsListed.mapSpan (listed : node.IsListed) (place : Span → Span) :
    (node.mapSpan place).IsListed := by
  intro child member field fills
  rw [kind_mapSpan]
  rw [children_mapSpan, mapSpanOfChildren_eq] at member
  obtain ⟨before, held, rfl⟩ := List.mem_map.mp member
  exact listed before held field (by cases before <;> exact fills)

theorem Catalogued.mapSpan (catalogued : node.Catalogued) (place : Span → Span) :
    (node.mapSpan place).Catalogued := by
  unfold Catalogued
  rw [descendants_mapSpan]
  exact List.forall_mem_map.mpr fun inner below => (catalogued inner below).mapSpan place

theorem CataloguedWith.catalogued {branch : Node → Prop} (catalogued : node.CataloguedWith branch) :
    node.Catalogued :=
  fun inner below => (catalogued inner below).1

end Node

end OpenCLTree

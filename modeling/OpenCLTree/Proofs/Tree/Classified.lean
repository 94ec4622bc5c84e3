import OpenCLTree.Proofs.Tree.Declarator
import OpenCLTree.Proofs.Tree.Descendants
import OpenCLTree.Syntax.Diagnostic
import OpenCLTree.Syntax.QualifierSet

namespace OpenCLTree

namespace NodeKind

/-- The kinds of declarations and definitions of functions, variables and types. -/
def isDeclaration : NodeKind → Bool
  | .declaration | .typeDefinition | .functionDefinition | .kernelFunctionDefinition => true
  | _ => false

end NodeKind

namespace Node

/-- Whether a declarator is just a name, parentheses apart. -/
inductive ParenthesizesName : Node → Prop
  | name {node : Node} : node.kind.isName = true → node.ParenthesizesName
  | parentheses {node inner : Node} : node.kind = .parenthesizedDeclarator →
      node.childNodes.head? = some inner → inner.ParenthesizesName → node.ParenthesizesName

/-- Whether the innermost layer of a declarator around its name, parentheses apart, is that of a
function. -/
inductive NamesFunction : Node → Prop
  | function {node inner : Node} : node.kind = .functionDeclarator →
      node.fieldNode? .declarator = some inner → inner.ParenthesizesName → node.NamesFunction
  | parentheses {node inner : Node} : node.kind = .parenthesizedDeclarator →
      node.childNodes.head? = some inner → inner.NamesFunction → node.NamesFunction
  | layer {node inner : Node} : node.kind.isName = false → node.kind ≠ .parenthesizedDeclarator →
      node.fieldNode? .declarator = some inner → inner.NamesFunction → node.NamesFunction

/-- The declarator right inside another one. -/
def innerDeclarator? (declarator : Node) : Option Node :=
  if declarator.kind.isName then none
  else if declarator.kind = .parenthesizedDeclarator then declarator.childNodes.head?
  else declarator.fieldNode? .declarator

/-- Whether a layer of a declarator is neither its name nor a parenthesis. -/
def isLayer (declarator : Node) : Bool :=
  !declarator.kind.isName && declarator.kind != .parenthesizedDeclarator

theorem layersOfFirstNode_eq (children : List Child) :
    layersOfFirstNode children = ((Child.nodes children).head?.map declaratorLayers).getD [] := by
  induction children with
  | nil => rw [layersOfFirstNode]; rfl
  | cons child rest ih => cases child <;> rw [layersOfFirstNode] <;> first | exact ih | rfl

theorem layersOfDeclarator_eq (kind : NodeKind) (span : Span) (children : List Child) :
    layersOfDeclarator children =
      (((mk kind span children).fieldNode? .declarator).map declaratorLayers).getD [] := by
  simp only [fieldNode?, field?, fieldsNamed, Node.children]
  induction children with
  | nil => rw [layersOfDeclarator]; rfl
  | cons child rest ih =>
    cases child with
    | token field leaf | node field inner =>
      rw [layersOfDeclarator, List.filter_cons]
      by_cases here : field = some .declarator
      · simp [here, Child.field?, Child.node?]
      · simpa [here, Child.field?] using ih

theorem declaratorLayers_eq (declarator : Node) : declarator.declaratorLayers =
    declarator :: (declarator.innerDeclarator?.map declaratorLayers).getD [] := by
  obtain ⟨kind, span, children⟩ := declarator
  rw [declaratorLayers, innerDeclarator?]
  refine congrArg (List.cons _) ?_
  change _ = ((if kind.isName = true then none
    else if kind = .parenthesizedDeclarator then (Child.nodes children).head?
    else (mk kind span children).fieldNode? .declarator).map declaratorLayers).getD []
  split
  · rfl
  split
  · exact layersOfFirstNode_eq children
  · exact layersOfDeclarator_eq kind span children

theorem declaratorLayers_ne_nil (declarator : Node) : declarator.declaratorLayers ≠ [] := by
  rw [declaratorLayers_eq]
  exact List.cons_ne_nil _ _

variable {node inner : Node}

theorem nameNode?_of_inner (inside : node.innerDeclarator? = some inner) :
    node.nameNode? = inner.nameNode? := by
  rw [nameNode?, declaratorLayers_eq, inside, Option.map_some, Option.getD_some,
    List.getLast?_cons_of_ne_nil inner.declaratorLayers_ne_nil, nameNode?]

theorem nameNode?_of_none (inside : node.innerDeclarator? = none) :
    node.nameNode? = if node.kind.isName then some node else none := by
  rw [nameNode?, declaratorLayers_eq, inside]
  cases named : node.kind.isName <;> simp [named]

theorem isName_of_nameNode? (inside : node.innerDeclarator? = none) (named : node.nameNode?.isSome = true) :
    node.kind.isName = true := by
  rw [nameNode?_of_none inside] at named
  split at named
  · assumption
  · cases named

theorem innerDeclarator?_of_isName (name : node.kind.isName = true) : node.innerDeclarator? = none := by
  rw [innerDeclarator?, if_pos name]

theorem isName_eq_false_of_inner (inside : node.innerDeclarator? = some inner) :
    node.kind.isName = false := by
  cases name : node.kind.isName with
  | false => rfl
  | true =>
    rw [innerDeclarator?_of_isName name] at inside
    cases inside

theorem innerDeclarator?_of_parenthesized (kind : node.kind = .parenthesizedDeclarator) :
    node.innerDeclarator? = node.childNodes.head? := by
  rw [innerDeclarator?, if_neg (by rw [kind]; decide), if_pos kind]

theorem innerDeclarator?_of_layer (other : node.kind.isName = false)
    (layer : node.kind ≠ .parenthesizedDeclarator) :
    node.innerDeclarator? = node.fieldNode? .declarator := by
  rw [innerDeclarator?, if_neg (by rw [other]; decide), if_neg layer]

theorem mem_childNodes_of_inner (inside : node.innerDeclarator? = some inner) :
    inner ∈ node.childNodes := by
  unfold innerDeclarator? at inside
  split at inside
  · cases inside
  split at inside
  · exact List.mem_of_head? inside
  · obtain ⟨child, found, isNode⟩ := Option.bind_eq_some_iff.mp inside
    exact Child.mem_nodes_of_node? (List.mem_filter.mp (List.mem_of_head? found)).1 isNode

/-- Induction over the layers of a declarator. -/
theorem declarator_induction {motive : Node → Prop}
    (step : ∀ node, (∀ inner, node.innerDeclarator? = some inner → motive inner) → motive node)
    (node : Node) : motive node := by
  have all : ∀ count node, node.declaratorLayers.length < count → motive node := by
    intro count
    induction count with
    | zero => exact fun _ fewer => absurd fewer (Nat.not_lt_zero _)
    | succ count ih =>
      intro node fewer
      refine step node fun inner inside => ih inner ?_
      rw [declaratorLayers_eq, inside] at fewer
      exact Nat.lt_of_succ_lt_succ fewer
  exact all _ node (Nat.lt_succ_self _)

/-- The name of a declarator is a token if nodes of names are. -/
theorem declaratorName?_of_nameNode? (node : Node)
    (names : ∀ inner ∈ node.descendants, inner.kind.isName = true →
      ∃ token, inner.children = [Token.toChild token]) (named : node.nameNode?.isSome = true) :
    ∃ name, node.declaratorName? = some name := by
  induction node using declarator_induction with
  | step node ih =>
    cases inside : node.innerDeclarator? with
    | none =>
      have isName := isName_of_nameNode? inside named
      obtain ⟨token, children⟩ := names node (mem_preorder_self (List.mem_singleton_self node)) isName
      refine ⟨token, ?_⟩
      rw [declaratorName?, nameNode?_of_none inside, if_pos isName, Option.bind_some, childTokens, children]
      rfl
    | some inner =>
      rw [declaratorName?, nameNode?_of_inner inside]
      refine ih inner inside (fun below member => names below ?_) (nameNode?_of_inner inside ▸ named)
      obtain ⟨kind, span, children⟩ := node
      rw [descendants_mk]
      exact List.mem_cons_of_mem _ (mem_preorder (mem_childNodes_of_inner inside) member)

theorem nameNode?_of_parenthesizesName (bare : node.ParenthesizesName) :
    node.nameNode?.isSome = true ∧ node.declaratorLayers.filter isLayer = [] := by
  induction bare with
  | @name node name =>
    have alone := innerDeclarator?_of_isName name
    rw [nameNode?_of_none alone, declaratorLayers_eq, alone]
    simp [name, isLayer]
  | @parentheses node inner kind first _ ih =>
    have inside := (innerDeclarator?_of_parenthesized kind).trans first
    rw [nameNode?_of_inner inside, declaratorLayers_eq, inside]
    simp [ih, isLayer, kind]

theorem parenthesizesName_of_nameNode? (node : Node) (named : node.nameNode?.isSome = true)
    (bare : node.declaratorLayers.filter isLayer = []) : node.ParenthesizesName := by
  induction node using declarator_induction with
  | step node ih =>
    cases inside : node.innerDeclarator? with
    | none => exact .name (isName_of_nameNode? inside named)
    | some inner =>
      have other := isName_eq_false_of_inner inside
      rw [declaratorLayers_eq, inside, Option.map_some, Option.getD_some, List.filter_cons] at bare
      have kind : node.kind = .parenthesizedDeclarator := by
        refine Decidable.byContradiction fun layer => ?_
        simp [isLayer, other, layer] at bare
      refine .parentheses kind ((innerDeclarator?_of_parenthesized kind).symm.trans inside) ?_
      rw [isLayer, kind] at bare
      exact ih inner inside (nameNode?_of_inner inside ▸ named) (by simpa using bare)

theorem nameHolder?_eq (node : Node) : node.nameHolder? =
    node.nameNode?.bind fun _ => (node.declaratorLayers.filter isLayer).getLast? :=
  rfl

theorem nameHolder?_of_nameNode? (named : node.nameNode?.isSome = true) :
    node.nameHolder? = (node.declaratorLayers.filter isLayer).getLast? := by
  obtain ⟨name, found⟩ := Option.isSome_iff_exists.mp named
  rw [nameHolder?_eq, found, Option.bind_some]

/-- The layer around the name of a declarator is that around the name of the one inside it, unless
there is none. -/
theorem nameHolder?_of_inner (inside : node.innerDeclarator? = some inner)
    (named : inner.nameNode?.isSome = true) :
    node.nameHolder? = inner.nameHolder?.or (if node.isLayer then some node else none) := by
  have namedToo : node.nameNode?.isSome = true := by rwa [nameNode?_of_inner inside]
  rw [nameHolder?_of_nameNode? namedToo, nameHolder?_of_nameNode? named, declaratorLayers_eq,
    inside, Option.map_some, Option.getD_some, List.filter_cons]
  cases layers : inner.declaratorLayers.filter isLayer with
  | nil => split <;> simp
  | cons layer rest => split <;> simp [List.getLast?_cons]

theorem nameNode?_of_declaresFunction (declares : node.declaresFunction = true) :
    node.nameNode?.isSome = true := by
  rw [declaresFunction, nameHolder?_eq] at declares
  cases found : node.nameNode? with
  | none => simp [found] at declares
  | some => rfl

theorem namesFunction_of_declaresFunction (node : Node) (declares : node.declaresFunction = true) :
    node.NamesFunction := by
  induction node using declarator_induction with
  | step node ih =>
    have named := nameNode?_of_declaresFunction declares
    cases inside : node.innerDeclarator? with
    | none =>
      have name := isName_of_nameNode? inside named
      rw [declaresFunction, nameHolder?_of_nameNode? named, declaratorLayers_eq, inside] at declares
      simp [isLayer, name] at declares
    | some inner =>
      have innerNamed : inner.nameNode?.isSome = true := nameNode?_of_inner inside ▸ named
      have other := isName_eq_false_of_inner inside
      rw [declaresFunction, nameHolder?_of_inner inside innerNamed] at declares
      by_cases kind : node.kind = .parenthesizedDeclarator
      · refine .parentheses kind ((innerDeclarator?_of_parenthesized kind).symm.trans inside) ?_
        exact ih inner inside (by simpa [isLayer, kind, declaresFunction] using declares)
      · have within := (innerDeclarator?_of_layer other kind).symm.trans inside
        cases holder : inner.nameHolder? with
        | none =>
          have bare : inner.declaratorLayers.filter isLayer = [] := by
            rwa [nameHolder?_of_nameNode? innerNamed, List.getLast?_eq_none_iff] at holder
          have function : node.kind = .functionDeclarator := by
            simpa [holder, isLayer, other, kind] using declares
          exact .function function within (parenthesizesName_of_nameNode? inner innerNamed bare)
        | some found =>
          refine .layer other kind within (ih inner inside ?_)
          simpa [holder, declaresFunction] using declares

theorem declaresFunction_of_namesFunction (names : node.NamesFunction) :
    node.declaresFunction = true := by
  induction names with
  | @function node inner kind within bare =>
    obtain ⟨named, empty⟩ := nameNode?_of_parenthesizesName bare
    have inside := (innerDeclarator?_of_layer (by rw [kind]; rfl) (by rw [kind]; decide)).trans within
    have layer : node.isLayer = true := by rw [isLayer, kind]; rfl
    rw [declaresFunction, nameHolder?_of_inner inside named, nameHolder?_of_nameNode? named, empty]
    simp [layer, kind]
  | @parentheses node inner kind within _ ih =>
    have inside := (innerDeclarator?_of_parenthesized kind).trans within
    rw [declaresFunction, nameHolder?_of_inner inside (nameNode?_of_declaresFunction ih)]
    simpa [isLayer, kind, declaresFunction] using ih
  | @layer node inner other kind within _ ih =>
    have inside := (innerDeclarator?_of_layer other kind).trans within
    rw [declaresFunction, nameHolder?_of_inner inside (nameNode?_of_declaresFunction ih)]
    cases holder : inner.nameHolder? with
    | none => simp [declaresFunction, holder] at ih
    | some found => simpa [declaresFunction, holder] using ih

/-- A declarator declares a function just if its name stands right inside a layer of a function. -/
theorem declaresFunction_iff (node : Node) : node.declaresFunction = true ↔ node.NamesFunction :=
  ⟨namesFunction_of_declaresFunction node, declaresFunction_of_namesFunction⟩

/-- The first declarator of a declaration, without the initializer that may follow it. -/
def firstDeclarator? (declaration : Node) : Option Node :=
  (declaration.fieldNode? .declarator).bind fun declarator =>
    if declarator.kind = .initDeclarator then declarator.fieldNode? .declarator else some declarator

/-- Whether there is a report at the first declarator of a declaration of a kernel: that the kernel
has no body if it is a function, and that it is no function otherwise. -/
def IsReported (reports : List ParseError) (declaration : Node) : Prop :=
  ∃ declarator, declaration.firstDeclarator? = some declarator ∧
    (declarator.NamesFunction ∧ (∃ name, declarator.declaratorName? = some name ∧
        .missingBody name.text declarator.span ∈ reports) ∨
      ¬ declarator.NamesFunction ∧
        .unexpectedToken .functionDeclarator declarator.kind.name declarator.span ∈ reports)

/-- What the kind of a declaration says of its qualifiers and its parts: it has one type; just the
definitions of kernels are those of functions with a kernel qualifier, and just type definitions are
declarations with a `typedef`, where kernels are left aside; and what is defined is a function. -/
structure IsClassified (node : Node) : Prop where
  type : (node.fieldsNamed .type).length = 1
  kernel : node.kind = .kernelFunctionDefinition → node.qualifierSet.contains .kernel = true
  function : node.kind = .functionDefinition →
    node.qualifierSet.contains .kernel = false ∧ node.qualifierSet.contains .typedef = false
  defined : node.kind = .functionDefinition ∨ node.kind = .kernelFunctionDefinition →
    (∃ declarator, node.fieldNode? .declarator = some declarator ∧ declarator.NamesFunction) ∧
      ∃ body, node.fieldNode? .body = some body ∧ body.kind = .compoundStatement
  typedef : node.kind = .declaration ∨ node.kind = .typeDefinition →
    node.qualifierSet.contains .kernel = false →
      (node.kind = .typeDefinition ↔ node.qualifierSet.contains .typedef = true)

end Node

end OpenCLTree

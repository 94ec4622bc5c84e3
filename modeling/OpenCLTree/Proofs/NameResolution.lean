import OpenCLTree.Proofs.Classification
import OpenCLTree.Proofs.Lexical.Spaced
import OpenCLTree.Proofs.Names.Walk

namespace OpenCLTree

variable (place : Span → Span)

/-- Moves the declarator whose name is pending. -/
def Walk.mapSpan (walk : Walk) : Walk :=
  ⟨walk.scopes, walk.pending.map (·.mapSpan place)⟩

/-- Moves the node that is met. -/
def Visit.mapSpan (visit : Visit) : Visit :=
  { visit with node := visit.node.mapSpan place }

theorem Scopes.bind_mapSpan (scopes : Scopes) (sort : NameSort) (declarator : Node) :
    scopes.bind sort (declarator.mapSpan place) = scopes.bind sort declarator := by
  have text := Node.declaredText_mapSpan place declarator
  unfold bind
  cases here : declarator.declaratorName? <;> cases there : (declarator.mapSpan place).declaratorName? <;>
    simp_all

namespace Walk

variable {place}

theorem settle_mapSpan (walk : Walk) (sort : NameSort) :
    (walk.mapSpan place).settle sort = walk.settle sort := by
  rcases walk with ⟨scopes, _ | declarator⟩
  · rfl
  · exact scopes.bind_mapSpan place sort declarator

theorem before_mapSpan (walk : Walk) (sort : NameSort) (role : ChildRole) :
    (walk.mapSpan place).before sort role = walk.before sort role := by
  cases role <;> first | rfl | exact walk.settle_mapSpan sort

theorem inside_mapSpan (walk : Walk) (sort : NameSort) (role : ChildRole) :
    (walk.mapSpan place).inside sort role = walk.inside sort role := by
  unfold inside
  split
  · rw [settle_mapSpan]
    rcases walk with ⟨scopes, _ | declarator⟩
    · rfl
    · exact congrArg _ (declarator.parameterNames_mapSpan place)
  · exact walk.before_mapSpan sort role

theorem behind_mapSpan (walk : Walk) (inner : Node) (last : Scopes) (role : ChildRole) :
    (walk.mapSpan place).behind (inner.mapSpan place) last role =
      (walk.behind inner last role).mapSpan place := by
  cases role <;> rfl

end Walk

namespace Node

mutual

/-- A walk through a moved tree meets the same nodes, moved, with the same names in scope. -/
theorem walk_mapSpan (sort : NameSort) (node : Node) (scopes : Scopes) :
    (node.mapSpan place).walk sort scopes =
      ((node.walk sort scopes).1.map (Visit.mapSpan place), (node.walk sort scopes).2) := by
  cases node with
  | mk kind span children =>
    have inside := walkChildren_mapSpan kind (kind.boundSort sort) children
      ⟨if kind.opensScope then scopes.enter else scopes, none⟩
    rw [mapSpan, walk, walk]
    dsimp only
    change walkChildren kind _ _ ⟨_, none⟩ = _ at inside
    rw [inside]
    dsimp only
    rw [Walk.settle_mapSpan]

theorem walkChildren_mapSpan (parent : NodeKind) (sort : NameSort) (children : List Child) (walk : Walk) :
    walkChildren parent sort (mapSpanOfChildren place children) (walk.mapSpan place) =
      ((walkChildren parent sort children walk).1.map (Visit.mapSpan place),
        (walkChildren parent sort children walk).2.mapSpan place) := by
  match children with
  | [] => rw [mapSpanOfChildren, walkChildren, walkChildren]; rfl
  | .token field leaf :: rest =>
    rw [mapSpanOfChildren, walkChildren, walkChildren, Walk.settle_mapSpan]
    exact walkChildren_mapSpan parent sort rest ⟨walk.settle sort, none⟩
  | .node field inner :: rest =>
    rw [mapSpanOfChildren, walkChildren, walkChildren]
    dsimp only
    rw [kind_mapSpan, Walk.inside_mapSpan, walk_mapSpan sort inner, Walk.behind_mapSpan,
      walkChildren_mapSpan parent sort rest]
    dsimp only
    rw [Walk.before_mapSpan, List.map_cons, List.map_append]
    rfl

end

variable {place}

/-- Names are used for the same things wherever a node stands. -/
theorem UsesNames.mapSpan {node : Node} {inBlock : Bool} {field : Option Field} {before after : Scopes}
    (uses : node.UsesNames inBlock field before after) :
    (node.mapSpan place).UsesNames inBlock field before after where
  type isType other := by
    rw [kind_mapSpan] at isType
    rw [leaves_mapSpan]
    exact List.forall_mem_map.mpr (uses.type isType other)
  item inside other := by
    rintro ⟨_, moved, name, isType⟩
    rw [leaves_mapSpan, List.head?_map] at moved
    obtain ⟨leaf, first, rfl⟩ := Option.map_eq_some_iff.mp moved
    rw [kind_mapSpan]
    exact uses.item inside other ⟨leaf, first, name, isType⟩
  call isCall _ moved isName := by
    rw [kind_mapSpan] at isCall
    rw [fieldNode?_mapSpan] at moved
    obtain ⟨callee, atCallee, rfl⟩ := Option.map_eq_some_iff.mp moved
    rw [kind_mapSpan] at isName
    rw [leaves_mapSpan]
    exact List.forall_mem_map.mpr (uses.call isCall callee atCallee isName)
  builtin isCall := by
    rw [kind_mapSpan] at isCall
    obtain ⟨callee, atCallee, isBuiltin⟩ := uses.builtin isCall
    refine ⟨callee.mapSpan place, by rw [fieldNode?_mapSpan, atCallee, Option.map_some], ?_⟩
    rw [leaves_mapSpan]
    exact List.forall_mem_map.mpr isBuiltin

end Node

/-- A walk through the tree of a source meets what a walk through its items as they were read meets. -/
theorem parse_visits (source : String) : (parse source).tree.root.visits =
    (Node.walkChildren .sourceFile .ordinary
      ((Reading.ofTokens (tokenize source).1).items.map Node.toChild) ⟨Scopes.file, none⟩).1.map
        (Visit.mapSpan (Span.placeIn (tokenize source).1 (byteLength source.toList))) := by
  rw [parse_root, Node.visits, Node.walk, ← Node.mapSpanOfChildren_toChild]
  exact congrArg Prod.fst (Node.walkChildren_mapSpan _ .sourceFile .ordinary _ ⟨Scopes.file, none⟩)

/-- Names are resolved by lexical scope. A walk through the tree of a source meets every node below the
root, and where no node is an error, all that it meets uses names for what the declarations around it
and in front of it say. -/
theorem parse_resolved (source : String) :
    (parse source).tree.root.visits.map (·.node) = (parse source).tree.root.descendants.tail ∧
      ((parse source).tree.hasError = false →
        ∀ visit ∈ (parse source).tree.root.visits, visit.Resolved) := by
  refine ⟨Node.node_visits _, fun proper => ?_⟩
  obtain ⟨last, items, _⟩ := Reading.ofTokens_items fun token member =>
    (tokenize_simple source token member).kind
  have free : Node.errors (Reading.ofTokens (tokenize source).1).items = [] := by
    have none : (parse source).tree.root.findAll .error = [] := by
      rw [Node.findAll, List.filter_eq_nil_iff]
      exact List.any_eq_false.mp proper
    rwa [findAll_error, List.map_eq_nil_iff] at none
  have reaches : Walk.Reaches .sourceFile .ordinary ⟨Scopes.file, none⟩
      ((Reading.ofTokens (tokenize source).1).items.map Node.toChild) ⟨last.scopes, none⟩ :=
    Resolves.reaches (items.resolves free) fun field inner _ =>
      NodeKind.roleOf_of_none rfl rfl field inner.kind
  rw [parse_visits]
  exact List.forall_mem_map.mpr fun visit member => (reaches.2 visit member).mapSpan

theorem parse_resolved_parameter :
    (parse "typedef int t ; void f ( int t ) \x7b t ; \x7d").tree.hasError = false ∧
      ∀ visit ∈ (parse "typedef int t ; void f ( int t ) \x7b t ; \x7d").tree.root.visits, visit.Resolved := by
  let tokens := [Token.leaf (.qualifier .typedef) "typedef", Token.leaf (.keyword .int) "int",
    Token.leaf .identifier "t", Punctuator.semicolon.leaf, Token.leaf (.keyword .void) "void",
    Token.leaf .identifier "f", Punctuator.leftParen.leaf, Token.leaf (.keyword .int) "int",
    Token.leaf .identifier "t", Punctuator.rightParen.leaf, Punctuator.leftBrace.leaf,
    Token.leaf .identifier "t", Punctuator.semicolon.leaf, Punctuator.rightBrace.leaf]
  have name (text : String) (isName : IsName text) : (Token.leaf .identifier text).IsSpelled :=
    isName.isSpelled
  have t := name "t" ⟨by decide +kernel, by decide +kernel, by decide +kernel, by decide +kernel⟩
  have f := name "f" ⟨by decide +kernel, by decide +kernel, by decide +kernel, by decide +kernel⟩
  have typedef : (Token.leaf (.qualifier .typedef) "typedef").IsSpelled :=
    ⟨TokenRule.plain_of_word (by decide +kernel), by decide +kernel, rfl⟩
  have mark (mark : Punctuator) (plain : mark ≠ .hash ∧ mark ≠ .hashHash) : mark.leaf.IsSpelled :=
    mark.leaf_isSpelled plain.1 plain.2
  have spelled : ∀ token ∈ tokens, token.IsSpelled := by
    simp only [tokens, List.forall_mem_cons]
    exact ⟨typedef, Keyword.int_isSpelled, t, mark _ (by decide), Keyword.void_isSpelled, f,
      mark _ (by decide), Keyword.int_isSpelled, t, mark _ (by decide), mark _ (by decide), t,
      mark _ (by decide), mark _ (by decide), by simp⟩
  have read : tokenize "typedef int t ; void f ( int t ) \x7b t ; \x7d" = (Token.placedFrom 0 tokens, []) :=
    tokenize_spaced spelled
  have quiet : (parse "typedef int t ; void f ( int t ) \x7b t ; \x7d").diagnostics = [] := by
    rw [diagnostics_eq_nil, read]
    exact ⟨rfl, by decide +kernel⟩
  have proper : (parse "typedef int t ; void f ( int t ) \x7b t ; \x7d").tree.hasError = false := by
    refine List.any_eq_false.mpr fun node member => ?_
    simpa [Node.isError] using ((diagnostics_account _).1.mp quiet).2.1 node member
  exact ⟨proper, (parse_resolved _).2 proper⟩

end OpenCLTree

import OpenCLTree.Proofs.Classification

namespace OpenCLTree

namespace Token

/-- Whether a dot and a name behind it select components: the name is one of components, and nothing
stands between them. -/
def Selects (dot name : Token) : Prop :=
  name.span.start = dot.span.stop ∧ isSwizzle name.text.toList = true

/-- The leaf that a dot and the name of components make. -/
def joined (dot name : Token) : Token :=
  ⟨.swizzle, dot.text ++ name.text, ⟨dot.span.start, name.span.stop⟩, dot.newlineBefore⟩

end Token

/-- How accesses are told apart: a dot and a name that select components are one leaf behind what may
be a vector, and members are accessed otherwise, through pointers always. Such leaves stand nowhere
else. -/
structure Node.TellsAccess (node : Node) : Prop where
  swizzle : node.kind = .swizzleAccess → ∃ (vector : Node) (dot name : Token),
    node.children = [vector.as .argument, (dot.joined name).as .accessor] ∧
      dot.kind = .punct .dot ∧ name.kind = .identifier ∧ vector.mayBeVector = true ∧ dot.Selects name
  member : node.kind = .fieldExpression → ∃ (record : Node) (operator name : Token),
    node.children = [record.as .argument, operator.as .operator,
      (ofToken .fieldIdentifier name).as .member] ∧ name.kind = .identifier ∧
      (operator.kind = .punct .arrow ∨
        operator.kind = .punct .dot ∧ ¬ (record.mayBeVector = true ∧ operator.Selects name))
  other : node.kind ≠ .error → node.kind ≠ .swizzleAccess →
    ∀ leaf ∈ node.childTokens, leaf.kind ≠ .swizzle

namespace Word

variable {place : Nat} {dot name accessor : Token}

theorem accessorOf?_eq_some (some : accessorOf? place dot name = .some accessor) :
    dot.kind = .punct .dot ∧ name.kind = .identifier ∧ dot.Selects name ∧
      accessor = ⟨.swizzle, dot.text ++ name.text, ⟨place, place + 2⟩, dot.newlineBefore⟩ := by
  unfold accessorOf? at some
  split at some
  · rename_i facts
    obtain ⟨isDot, isName, adjacent, components⟩ := facts
    exact ⟨isDot, isName, ⟨adjacent, components⟩, (Option.some.inj some).symm⟩
  · cases some

theorem accessorOf?_ne_none (isDot : dot.kind = .punct .dot) (isName : name.kind = .identifier)
    (selects : dot.Selects name) : accessorOf? place dot name ≠ none := by
  rw [accessorOf?, if_pos ⟨isDot, isName, selects⟩]
  nofun

end Word

namespace Node

variable {tokens : List Token} {size : Nat} {node : Node}

theorem locate_token {place : Nat} {token : Token} (listed : tokens[place]? = some token) :
    (token.mapSpan fun _ => ⟨place, place + 1⟩).mapSpan (Span.placeIn tokens size) = token := by
  rw [Token.mapSpan, Token.mapSpan, Span.locate_eq (Nat.lt_succ_self place) listed listed]

theorem Accesses.located (accesses : node.Accesses tokens) :
    (node.mapSpan (Span.placeIn tokens size)).TellsAccess where
  swizzle isSwizzle := by
    rw [kind_mapSpan] at isSwizzle
    obtain ⟨vector, accessor, dot, name, place, children, isVector, atDot, atName, joined⟩ :=
      accesses.swizzle isSwizzle
    obtain ⟨isDot, isName, selects, rfl⟩ := Word.accessorOf?_eq_some joined
    refine ⟨vector.mapSpan (Span.placeIn tokens size), dot, name, ?_, isDot, isName,
      by rwa [mayBeVector_mapSpan], selects⟩
    have located : Span.placeIn tokens size ⟨place, place + 2⟩ = ⟨dot.span.start, name.span.stop⟩ :=
      Span.locate_eq (Nat.lt_add_of_pos_right Nat.two_pos) atDot atName
    rw [children_mapSpan, children, mapSpanOfChildren_eq]
    simp only [List.map_cons, List.map_nil, Node.as, Token.as, Child.mapSpan, Token.mapSpan, located,
      Token.joined]
  member isMember := by
    rw [kind_mapSpan] at isMember
    obtain ⟨record, operator, name, place, children, atOperator, atName, isName, which⟩ :=
      accesses.member isMember
    refine ⟨record.mapSpan (Span.placeIn tokens size), operator, name, ?_, isName, ?_⟩
    · have leaf : (ofToken .fieldIdentifier (name.mapSpan fun _ => ⟨place + 1, place + 2⟩)).mapSpan
          (Span.placeIn tokens size) = ofToken .fieldIdentifier name := by
        rw [(Child.node.inj (Child.mapSpan_ofToken _ _ _)).2]
        exact congrArg (ofToken .fieldIdentifier) (locate_token atName)
      rw [children_mapSpan, children, mapSpanOfChildren_eq]
      simp only [List.map_cons, List.map_nil, Node.as, Token.as, Child.mapSpan, locate_token atOperator, leaf]
    · rw [mayBeVector_mapSpan]
      refine which.imp_right fun isDot => ⟨isDot.1, fun both => ?_⟩
      exact Word.accessorOf?_ne_none isDot.1 isName both.2 (isDot.2 both.1)
  other proper noSwizzle := by
    rw [kind_mapSpan] at proper noSwizzle
    rw [childTokens_mapSpan]
    exact List.forall_mem_map.mpr (accesses.other proper noSwizzle)

end Node

/-- Whether the accesses of a tree are told apart. -/
def Tree.TellsAccesses (tree : Tree) : Prop :=
  ∀ node ∈ tree.root.descendants, node.TellsAccess

/-- In every tree components are selected just where a dot and a name of components behind it have
nothing between them, and what is in front of the dot may be a vector. -/
theorem parse_tellsAccesses (source : String) : (parse source).tree.TellsAccesses := by
  intro node member
  rcases Node.mem_descendants_iff.mp member with rfl | below
  · rw [parse_root]
    refine ⟨nofun, nofun, fun _ _ leaf inside => ?_⟩
    rw [Node.childTokens, Node.children, Child.tokens_toChild] at inside
    cases inside
  · obtain ⟨inner, shaped, _, rfl⟩ := parse_shaped source node below
    exact shaped.accesses.located

end OpenCLTree

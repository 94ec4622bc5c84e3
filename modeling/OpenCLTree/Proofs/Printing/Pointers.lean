import OpenCLTree.Proofs.Printing.RoundTrip
import OpenCLTree.Proofs.Tree.Located

namespace OpenCLTree

namespace Node

mutual

/-- How many nodes of a kind lie inside each other, on the way from a node to a leaf with the most. -/
def depthOf (kind : NodeKind) : Node → Nat
  | .mk top _ children => depthOfChildren kind children + if top = kind then 1 else 0

def depthOfChildren (kind : NodeKind) : List Child → Nat
  | [] => 0
  | .token _ _ :: rest => depthOfChildren kind rest
  | .node _ inner :: rest => max (depthOf kind inner) (depthOfChildren kind rest)

end

mutual

theorem depthOf_mapSpan (kind : NodeKind) (place : Span → Span) (node : Node) :
    (node.mapSpan place).depthOf kind = node.depthOf kind := by
  cases node with
  | mk top span children => rw [mapSpan, depthOf, depthOf, depthOfChildren_mapSpan kind place children]

theorem depthOfChildren_mapSpan (kind : NodeKind) (place : Span → Span) (children : List Child) :
    depthOfChildren kind (mapSpanOfChildren place children) = depthOfChildren kind children := by
  match children with
  | [] => rw [mapSpanOfChildren]
  | .token field leaf :: rest =>
    rw [mapSpanOfChildren, depthOfChildren, depthOfChildren, depthOfChildren_mapSpan kind place rest]
  | .node field inner :: rest =>
    rw [mapSpanOfChildren, depthOfChildren, depthOfChildren, depthOf_mapSpan kind place inner,
      depthOfChildren_mapSpan kind place rest]

end

/-- The declarator of `x` as a pointer of some levels. -/
def pointers : Nat → Node
  | 0 => .bare .identifier [Token.leaf .identifier "x"]
  | levels + 1 =>
    .bare .pointerDeclarator [Punctuator.star.leaf.toChild, (pointers levels).as .declarator]

/-- The declaration of such a pointer to `int`. -/
def pointerDeclaration (levels : Nat) : Node :=
  .bare .declaration [(Node.bare .primitiveType [Token.leaf (.keyword .int) "int"]).as .type,
    (pointers levels).as .declarator, Punctuator.semicolon.leaf.toChild]

theorem isAbstract_pointers (levels : Nat) : (pointers levels).isAbstract = false := by
  cases levels <;> rfl

theorem declaratorLayers_pointers (levels : Nat) :
    (pointers levels).declaratorLayers.getLast? = some (pointers 0) := by
  induction levels with
  | zero => rfl
  | succ levels ih =>
    have inner : layersOfDeclarator [Punctuator.star.leaf.toChild, (pointers levels).as .declarator] =
        (pointers levels).declaratorLayers := by
      simp [layersOfDeclarator, Token.toChild, Node.as]
    have layers : (pointers (levels + 1)).declaratorLayers =
        pointers (levels + 1) :: (pointers levels).declaratorLayers := by
      rw [pointers, bare, declaratorLayers, if_neg (by decide), if_neg (by decide), inner]
    rw [layers, List.getLast?_cons, ih]
    rfl

theorem declaratorName?_pointers (levels : Nat) :
    (pointers levels).declaratorName? = some (.leaf .identifier "x") := by
  rw [declaratorName?, nameNode?, declaratorLayers_pointers]
  rfl

theorem depthOf_pointers (levels : Nat) : (pointers levels).depthOf .pointerDeclarator = levels := by
  induction levels with
  | zero => rfl
  | succ levels ih =>
    rw [pointers, bare, depthOf, Token.toChild, depthOfChildren, Node.as, depthOfChildren, ih,
      depthOfChildren, Nat.max_zero, if_pos rfl]

end Node

/-- The tokens of a declaration of `x` as a pointer of some levels, from after the type. -/
def pointerLeaves (levels : Nat) : List Token :=
  List.replicate levels Punctuator.star.leaf ++ [.leaf .identifier "x", Punctuator.semicolon.leaf]

theorem pointerLeaves_head (levels : Nat) : ∃ first rest, pointerLeaves levels = first :: rest ∧
    (first.kind = .punct .star ∨ first.kind = .identifier) := by
  cases levels with
  | zero => exact ⟨_, _, rfl, .inr rfl⟩
  | succ levels => exact ⟨_, _, rfl, .inl rfl⟩

namespace Rule

variable {scene : Scene} {sub : Grammar} {first : Token} {rest : List Token}

theorem pointerQualifiers_none (plain : ∀ qualifier, first.kind ≠ .qualifier qualifier) :
    pointerQualifiers.Parses (scene.before (first :: rest)) (scene.before (first :: rest)) (· = []) := by
  refine Parses.bind (show Parses _ _ (scene.before (first :: rest)) (· = (⟨[], .empty⟩ : Specifiers)) from
    Parses.loop_stop (parses_token.bind ?_)) ?_
  · rintro _ ⟨here, rfl, rfl⟩
    dsimp only
    split
    · rename_i qualifier kind
      exact absurd kind (plain qualifier)
    · exact parses_pure ⟨_, rfl, rfl⟩
  · rintro _ rfl
    exact parses_pure rfl

/-- Every star is read by a call of its own, and none of them is counted. -/
theorem declarator_pointers {levels depth : Nat} (enough : levels ≤ depth) :
    ((Grammar.ofDepth (depth + 1)).declarator .named).Parses (scene.before (pointerLeaves levels))
      (scene.before [Punctuator.semicolon.leaf])
      fun found => ∃ node, found = some node ∧ node.unplaced = .pointers levels := by
  induction levels generalizing depth with
  | zero =>
    refine (parses_accept_none (by rintro ⟨⟩)).bind ?_
    rintro _ rfl
    refine (declaratorCore_name rfl).bind ?_
    rintro _ ⟨name, rfl, atName⟩
    refine Parses.loop_stop (parses_currentKind.bind ?_)
    rintro _ rfl
    exact parses_pure ⟨_, rfl, _, rfl, by simp [Node.ofToken, Node.pointers, Node.bare, atName]⟩
  | succ levels ih =>
    obtain ⟨depth, rfl⟩ := Nat.exists_eq_add_one_of_ne_zero (Nat.ne_zero_of_lt enough)
    have unqualified : pointerQualifiers.Parses (scene.before (pointerLeaves levels))
        (scene.before (pointerLeaves levels)) (· = []) := by
      obtain ⟨first, rest, leaves, kind⟩ := pointerLeaves_head levels
      rw [leaves]
      refine pointerQualifiers_none fun qualifier isQualifier => ?_
      rcases kind with same | same <;> cases same.symm.trans isQualifier
    refine (parses_accept rfl).bind ?_
    rintro _ ⟨star, rfl, atStar⟩
    refine unqualified.bind ?_
    rintro _ rfl
    refine (ih (Nat.le_of_succ_le_succ enough)).bind ?_
    rintro _ ⟨inner, rfl, same⟩
    have concrete : inner.isAbstract = false := by
      rw [Node.isAbstract, ← Node.kind_unplaced, same]
      exact Node.isAbstract_pointers levels
    exact parses_pure ⟨_, rfl, by simp [concrete, atStar, same, Node.pointers, Node.bare]⟩

theorem declared_pointers {levels depth : Nat} (enough : levels ≤ depth)
    (room : scene.nesting < nestingLimit) :
    (declared (.ofDepth (depth + 1))).Parses (scene.before (pointerLeaves levels))
      (scene.before [Punctuator.semicolon.leaf])
      fun first => first.attributes = [] ∧ first.declarator.unplaced = .pointers levels := by
  have found : (requiredDeclarator (.ofDepth (depth + 1)) .named).Parses
      (scene.before (pointerLeaves levels)) (scene.before [Punctuator.semicolon.leaf])
      (·.unplaced = .pointers levels) := by
    refine ((declarator_pointers enough).nested room).bind ?_
    rintro _ ⟨node, rfl, same⟩
    exact parses_pure same
  refine found.bind fun declarator same => (attributes_none rfl).bind ?_
  rintro _ rfl
  exact parses_pure ⟨rfl, same⟩

theorem declareName_pointers {levels : Nat} {declarator : Node} {tokens : List Token}
    (same : declarator.unplaced = .pointers levels) :
    (declareName declarator .ordinary).Parses (scene.before tokens)
      ((scene.mapScopes (·.declare "x" .ordinary)).before tokens) fun _ => True := by
  have text : declarator.declaratorName?.map (·.text) = some "x" := by
    have moved := Node.declaredText_mapSpan (fun _ => ⟨0, 0⟩) declarator
    change declarator.unplaced.declaratorName?.map (·.text) = _ at moved
    rw [← moved, same, Node.declaratorName?_pointers]
    rfl
  obtain ⟨name, atName, isX⟩ := Option.map_eq_some_iff.mp text
  rw [declareName, atName]
  simp only [isX]
  exact parses_mapScopes _

theorem declarationRest_pointers {levels : Nat} {declared : Declared} (none : declared.attributes = [])
    (same : declared.declarator.unplaced = .pointers levels) :
    (declarationRest sub .ordinary declared).Parses (scene.before [Punctuator.semicolon.leaf])
      ((scene.mapScopes (·.declare "x" .ordinary)).before [])
      fun children => Node.unplacedChildren children =
        [(Node.pointers levels).as .declarator, Punctuator.semicolon.leaf.toChild] := by
  have uninitialized : (initDeclarator sub .ordinary declared).Parses
      (scene.before [Punctuator.semicolon.leaf])
      ((scene.mapScopes (·.declare "x" .ordinary)).before [Punctuator.semicolon.leaf])
      (· = declared.children) := by
    refine (declareName_pointers same).bind fun _ _ => (parses_accept_none (by rintro ⟨⟩)).bind ?_
    rintro _ rfl
    exact parses_pure rfl
  refine Parses.bind (show Parses _ _ ((scene.mapScopes (·.declare "x" .ordinary)).before
    [Punctuator.semicolon.leaf]) (· = declared.children) from
      Parses.loop_stop (uninitialized.bind ?_)) ?_
  · rintro _ rfl
    refine (parses_accept_none (by rintro ⟨⟩)).bind ?_
    rintro _ rfl
    exact parses_pure ⟨_, rfl, by simp⟩
  · rintro _ rfl
    refine (parses_expect rfl).bind fun semicolon atSemicolon => parses_pure ?_
    simp [Declared.children, none, same, atSemicolon]

theorem externalDeclaration_pointers {levels depth : Nat} (enough : levels ≤ depth)
    (room : scene.nesting < nestingLimit) :
    (externalDeclaration (.ofDepth (depth + 1))).Parses
      (scene.before (.leaf (.keyword .int) "int" :: pointerLeaves levels))
      ((scene.mapScopes (·.declare "x" .ordinary)).before [])
      (·.unplaced = .pointerDeclaration levels) := by
  obtain ⟨first, rest, leaves, kind⟩ := pointerLeaves_head levels
  have ends : first.kind.endsSpecifiers = true := by
    rcases kind with same | same <;> rw [same] <;> rfl
  rw [leaves]
  refine (declarationSpecifiers_primitive (.inl rfl) ends).bind ?_
  rintro ⟨children, _⟩ ⟨rfl, atSpecifiers⟩
  refine Parses.bind (parses_accept_none ?_) ?_
  · intro semicolon
    rcases kind with same | same <;> cases same.symm.trans (Option.some.inj semicolon)
  rintro _ rfl
  rw [← leaves]
  refine (declared_pointers enough room).bind ?_
  rintro declared ⟨none, same⟩
  refine (parses_check _).bind ?_
  rintro _ rfl
  have whole : (do
      let rest ← declarationRest (.ofDepth (depth + 1)) .ordinary declared
      pure (Node.make .declaration (children ++ rest))).Parses (scene.before [Punctuator.semicolon.leaf])
        ((scene.mapScopes (·.declare "x" .ordinary)).before [])
        (·.unplaced = Node.pointerDeclaration levels) := by
    refine (declarationRest_pointers none same).bind fun rest atRest => parses_pure ?_
    simp [atSpecifiers, atRest, Node.pointerDeclaration, Node.bare]
  split
  · rename_i isBrace
    cases isBrace
  · exact whole

end Rule

/-- A source that declares `x` as a pointer of some levels to `int`, its tokens one blank apart. -/
def pointerSource (levels : Nat) : String :=
  Token.spaced (.leaf (.keyword .int) "int" :: pointerLeaves levels)

theorem pointerLeaves_isSpelled (levels : Nat) : ∀ token ∈ pointerLeaves levels, token.IsSpelled := by
  have name : IsName "x" :=
    ⟨by decide +kernel, by decide +kernel, by decide +kernel, by decide +kernel⟩
  intro token member
  simp only [pointerLeaves, List.mem_append, List.mem_replicate, List.mem_cons, List.not_mem_nil,
    or_false] at member
  rcases member with ⟨_, rfl⟩ | rfl | rfl
  · exact Punctuator.star.leaf_isSpelled (by decide) (by decide)
  · exact name.isSpelled
  · exact Punctuator.semicolon.leaf_isSpelled (by decide) (by decide)

/-- Pointers of any number of levels are read without an error, each level inside the one before. -/
theorem parse_pointers (levels : Nat) : (parse (pointerSource levels)).diagnostics = [] ∧
    (parse (pointerSource levels)).tree.root.depthOf .pointerDeclarator = levels := by
  have spelled : ∀ token ∈ Token.leaf (.keyword .int) "int" :: pointerLeaves levels, token.IsSpelled :=
    List.forall_mem_cons.mpr ⟨Keyword.int_isSpelled, pointerLeaves_isSpelled levels⟩
  have tokens := tokenize_spaced spelled
  have count : (Token.leaf (.keyword .int) "int" :: pointerLeaves levels).length = levels + 2 + 1 := by
    simp [pointerLeaves]
  let scene : Scene := ⟨[], Scopes.file, [], 0⟩
  have parses : (sourceItems (Grammar.ofDepth (levels + 2 + 1))).Parses
      (scene.before (.leaf (.keyword .int) "int" :: pointerLeaves levels))
      ((scene.mapScopes (·.declare "x" .ordinary)).before [])
      (·.map Node.unplaced = [.pointerDeclaration levels]) := by
    refine Rule.sourceItems_single (List.cons_ne_nil _ _) (Rule.parses_currentKind.bind ?_)
    rintro _ rfl
    exact Rule.externalDeclaration_pointers (Nat.le_add_right _ _) (by decide)
  rw [← count] at parses
  obtain ⟨errors, items⟩ := Reading.ofTokens_placedFrom spelled parses rfl
  constructor
  · rw [diagnostics_eq_nil, pointerSource, tokens]
    exact ⟨rfl, errors⟩
  · rw [← Node.depthOf_mapSpan _ fun _ => ⟨0, 0⟩]
    change (Node.unplaced _).depthOf _ = _
    rw [unplaced_root, pointerSource, tokens, items]
    simp [Node.depthOf, Node.depthOfChildren, Node.toChild, Node.as, Token.toChild, Node.bare,
      Node.pointerDeclaration, Node.depthOf_pointers]

end OpenCLTree

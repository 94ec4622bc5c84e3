import OpenCLTree.Proofs.Derivation.Declarator
import OpenCLTree.Proofs.Reading

namespace OpenCLTree

namespace GrammarState.Ready

variable {tokens : List Token} {state : GrammarState} {dot name leaf : Token} {rest : List Word}

/-- Where a dot and a name make an accessor, it is what is read with component names. -/
theorem peek?_suffix (ready : state.Ready tokens) (atDot : tokens[state.cursor.place]? = some dot)
    (atName : tokens[state.cursor.place + 1]? = some name)
    (joined : Word.accessorOf? state.cursor.place dot name = some leaf) :
    (state.cursor.setMode .suffix).peek? 0 = some leaf := by
  have here := ready.place
  unfold GrammarState.At at here
  obtain ⟨within, isDot⟩ := List.getElem?_eq_some_iff.mp atDot
  obtain ⟨next, isName⟩ := List.getElem?_eq_some_iff.mp atName
  rw [List.drop_eq_getElem_cons within, List.drop_eq_getElem_cons next, isDot, isName] at here
  rw [Cursor.peek?, Cursor.setMode, Word.peek?, here, Word.ofTokensFrom, List.head?_cons,
    Option.bind_some, joined]
  rfl

/-- An accessor that is read is made of two tokens of the stream. -/
theorem accessor (ready : state.Ready tokens)
    (read : Word.read? .suffix state.cursor.rest = some (leaf, rest))
    (kind : leaf.kind = .swizzle) : ∃ dot name, tokens[state.cursor.place]? = some dot ∧
      tokens[state.cursor.place + 1]? = some name ∧
      Word.accessorOf? state.cursor.place dot name = some leaf := by
  cases (ready.pass read).2 with
  | token listed =>
    have plain := ready.lexed _ (List.mem_of_getElem? listed)
    exact absurd kind plain
  | accessor atDot atName joined => exact ⟨_, _, atDot, atName, joined⟩

end GrammarState.Ready

theorem Node.leaves_of_token {node : Node} {token : Token} (children : node.children = [token.toChild]) :
    node.leaves = [token] := by
  obtain ⟨kind, span, _⟩ := node
  cases children
  rw [Node.leaves, Token.toChild, leavesOfChildren_token, leavesOfChildren_nil]

/-- A callee that is a name is found built in just if the name is. -/
theorem builtinCallee?_name {scopes : Scopes} {callee : Node} {token name : Token}
    (isName : callee.kind = .identifier) (children : callee.children = [token.toChild]) :
    builtinCallee? scopes callee = some name ↔
      token = name ∧ Node.IsBuiltin scopes token.text := by
  have first : callee.childTokens.head? = some token := by
    rw [Node.childTokens, children]
    rfl
  rw [builtinCallee?, if_pos isName, first, Option.filter_some, Node.IsBuiltin]
  split
  · rename_i holds
    simpa using fun _ => holds
  · rename_i fails
    simpa using fun _ => fails

namespace Derivation

variable {tokens : List Token} {first middle last : GrammarState} {inner callee arguments : Node}
  {accessor token name operator : Token} {rest : List Word}

/-- Components that are selected from what may be a vector. -/
theorem swizzle (sofar : Derivation tokens first [inner.toChild] last)
    (vector : inner.mayBeVector = true)
    (read : Word.read? .suffix last.cursor.rest = some (accessor, rest))
    (kind : accessor.kind = .swizzle) :
    Derivation tokens first
      [(Node.make .swizzleAccess [inner.as .argument, accessor.as .accessor]).toChild]
      (last.pass accessor rest) := by
  obtain ⟨ready, covers⟩ := sofar.ready.pass read
  obtain ⟨dot, name, atDot, atName, joined⟩ := sofar.ready.accessor read kind
  have shaped : (Node.make .swizzleAccess [inner.as .argument, accessor.as .accessor]).Shaped tokens :=
    { classified := fun declaration => by cases declaration
      name := fun name => by cases name
      accesses := ⟨fun _ => ⟨inner, accessor, dot, name, _, rfl, vector, atDot, atName, joined⟩,
        fun member => (by cases member), fun _ other => absurd rfl other⟩
      braces := fun isError => by cases isError
      line := fun line => by cases line }
  have inside : Child.nodes [inner.as .argument, accessor.as .accessor] = [inner] := rfl
  have proper : NodeKind.swizzleAccess ≠ .error := by decide
  refine ⟨⟨⟨ready, sofar.reports, sofar.scopes⟩, List.forall_mem_nil _, ?_, fun free => ?_⟩,
    fun free => ?_⟩
  · rw [Node.toChild, Child.nodes, Child.nodes, ← Node.descendants, Node.descendants_make, inside]
    exact List.forall_mem_cons.mpr ⟨⟨shaped, by rw [Node.kind_make]; decide⟩, sofar.shaped⟩
  · rw [Node.toChild, Child.nodes, Child.nodes, Node.errors_make proper, inside] at free
    have before := sofar.covers free
    simp only [Node.toChild, Node.leavesOfChildren_node, Node.leavesOfChildren_nil, List.append_nil,
      Node.leaves_make, Node.as, Token.as, Node.leavesOfChildren_token] at before ⊢
    exact before.append covers
  · rw [Node.toChild, Child.nodes, Child.nodes, Node.errors_make proper, inside] at free
    obtain ⟨walks, uses⟩ := (sofar.resolves free).single
    refine .node (fun sort => ?_) (Node.usesNames_of_other rfl) (.nothing _)
    exact Node.walks_of_resolves rfl rfl rfl (.node walks (uses.inField _) (.token (.nothing _)))

/-- The name of a function that is called, as that of one that is built in. -/
theorem builtinName (sofar : Derivation tokens first [callee.toChild] last)
    (isName : callee.kind = .identifier) : ∃ token, callee.children = [Token.toChild token] ∧
      Derivation tokens first [(Node.ofToken .builtinFunction token).toChild] last := by
  obtain ⟨kind, span, children⟩ := callee
  cases isName
  have below := sofar.shaped
  rw [Node.toChild, Child.nodes, Child.nodes, ← Node.descendants, Node.descendants_mk] at below
  obtain ⟨⟨shaped, _⟩, _⟩ := List.forall_mem_cons.mp below
  obtain ⟨token, rfl⟩ := shaped.name rfl
  have plain := shaped.accesses.other (by rw [Node.kind]; decide) (by rw [Node.kind]; decide)
  have free : Node.errors (Child.nodes [(Node.mk .identifier span [token.toChild]).toChild]) = [] := by
    simp [Node.errors, Node.toChild, Child.nodes, Node.preorder, Token.toChild, Node.kind]
  have covers := sofar.covers free
  obtain ⟨walks, _⟩ := (sofar.resolves free).single
  have same : first.scopes = last.scopes := (walks .ordinary).1
  refine ⟨token, rfl, ⟨sofar.toOnward, List.forall_mem_nil _, ?_, fun _ => ?_⟩, fun _ => ?_⟩
  · rw [Node.toChild, Child.nodes, Child.nodes, ← Node.descendants, Node.ofToken, Node.descendants_make,
      Token.toChild, Child.nodes, Child.nodes, Node.preorder_nil]
    exact List.forall_mem_singleton.mpr ⟨Node.shaped_of_token (plain token List.mem_cons_self) rfl,
      by rw [Node.kind_make]; decide⟩
  · simpa [Node.toChild, Node.leaves, Node.ofToken, Node.leaves_make] using covers
  · rw [same]
    refine .node (fun sort => ?_) (Node.usesNames_of_other rfl) (.nothing _)
    exact Node.walks_of_resolves rfl rfl rfl (.token (.nothing _))

theorem place_token (sofar : Derivation tokens first [token.toChild] last) :
    last.cursor.place = token.span.stop := by
  have covers := sofar.covers (by simp [Token.toChild, Child.nodes, Node.errors_nil])
  rw [Token.toChild, Node.leavesOfChildren_token, Node.leavesOfChildren_nil] at covers
  exact covers.stop_eq

/-- A member that is selected where no accessor can be read, or from what cannot be a vector. -/
theorem member {record : Node} {state : GrammarState}
    (sofar : Derivation tokens first [record.toChild] state)
    (readOperator : Derivation tokens state [operator.toChild] middle)
    (readName : Derivation tokens middle [name.toChild] last)
    (atOperator : state.cursor.peek? 0 = some operator)
    (isOperator : operator.kind = .punct .dot ∨ operator.kind = .punct .arrow)
    (atName : middle.cursor.peek? 0 = some name) (isName : name.kind = .identifier)
    (apart : record.mayBeVector = true → ∀ leaf, (state.cursor.setMode .suffix).peek? 0 = some leaf →
      leaf.kind ≠ .swizzle) :
    Derivation tokens first
      [(Node.make .fieldExpression [record.as .argument, operator.as .operator,
        (Node.ofToken .fieldIdentifier name).as .member]).toChild] last := by
  have whole := (sofar.join readOperator).join (readName.leaf .fieldIdentifier rfl)
  have place := readOperator.place_token
  obtain ⟨dot, listedDot, rfl⟩ := sofar.ready.current atOperator
  obtain ⟨found, listedName, rfl⟩ := readOperator.ready.current atName
  rw [show middle.cursor.place = state.cursor.place + 1 from place] at listedName whole ⊢
  refine whole.inertNode (by simp) ⟨nofun, nofun, ⟨nofun, fun _ => ?_, fun _ _ => ?_⟩, nofun, nofun⟩ rfl
    fun _ => Node.usesNames_of_other rfl
  · refine ⟨record, dot, found, state.cursor.place, rfl, listedDot, listedName, isName, ?_⟩
    refine isOperator.symm.imp_right fun isDot => ⟨isDot, fun vector => ?_⟩
    cases joined : Word.accessorOf? state.cursor.place dot found with
    | none => rfl
    | some accessor =>
      have kind : accessor.kind = .swizzle := by
        unfold Word.accessorOf? at joined
        split at joined <;> cases joined
        rfl
      exact absurd kind (apart vector _ (sofar.ready.peek?_suffix listedDot listedName joined))
  · exact List.forall_mem_singleton.mpr (sofar.ready.current_kind atOperator)

/-- A call is one of a built-in function just if its name stands for one behind the arguments. -/
theorem call (sofar : Derivation tokens first [callee.toChild] middle)
    (readArguments : Derivation tokens middle [arguments.toChild] last)
    (none : builtinCallee? last.scopes callee = none) :
    Derivation tokens first
      [(Node.make .callExpression [callee.as .function, arguments.as .arguments]).toChild] last := by
  refine (sofar.join readArguments).inertNode (by simp)
    (Node.shaped_of_common (List.forall_mem_nil _) rfl rfl) rfl
    fun free => ⟨nofun, nofun, fun _ found same isName leaf member => ?_, nofun⟩
  cases same
  obtain ⟨token, children, _⟩ := sofar.builtinName isName
  rw [Node.leaves_of_token children, List.mem_singleton] at member
  intro builtin
  have found := (builtinCallee?_name isName children).mpr ⟨rfl, member ▸ builtin⟩
  rw [none] at found
  cases found

theorem builtinCall {name : Token} (sofar : Derivation tokens first [callee.toChild] middle)
    (readArguments : Derivation tokens middle [arguments.toChild] last)
    (builtin : builtinCallee? last.scopes callee = some name) :
    Derivation tokens first
      [(Node.make .builtinFunctionCall [(Node.ofToken .builtinFunction name).as .function,
        arguments.as .arguments]).toChild] last := by
  have isName : callee.kind = .identifier := by
    unfold builtinCallee? at builtin
    split at builtin
    · assumption
    · cases builtin
  obtain ⟨token, children, readName⟩ := sofar.builtinName isName
  obtain ⟨rfl, isBuiltin⟩ := (builtinCallee?_name isName children).mp builtin
  refine (readName.join readArguments).inertNode (by simp)
    (Node.shaped_of_common (List.forall_mem_nil _) rfl rfl) rfl
    fun free => ⟨nofun, nofun, nofun, fun _ => ⟨_, rfl, fun leaf member => ?_⟩⟩
  rw [Node.leaves_of_token rfl, List.mem_singleton] at member
  rwa [member]

end Derivation

end OpenCLTree

import OpenCLTree.Proofs.Derivation.Shaped
import OpenCLTree.Proofs.Grammar.Accounts

namespace OpenCLTree

namespace Child

theorem tokens_append (front back : List Child) :
    tokens (front ++ back) = tokens front ++ tokens back := by
  induction front with
  | nil => rfl
  | cons child rest ih => cases child <;> simp [tokens, ih]

@[simp]
theorem tokens_tokens (leaves : List Token) : tokens (leaves.map Token.toChild) = leaves := by
  induction leaves with
  | nil => rfl
  | cons leaf rest ih => exact congrArg (leaf :: ·) ih

theorem tokens_toChild (nodes : List Node) : tokens (nodes.map Node.toChild) = [] := by
  induction nodes with
  | nil => rfl
  | cons node rest ih => exact ih

@[simp]
theorem tokens_bare (children : List Child) : tokens (children.map bare) = tokens children := by
  induction children with
  | nil => rfl
  | cons child rest ih => cases child <;> simp [tokens, bare, ih]

end Child

/-- Whether a rule may start in a state: dots are read as dots, and the words to come are those of
a stream, behind the ones that have been taken. -/
structure GrammarState.Ready (tokens : List Token) (state : GrammarState) : Prop where
  mode : state.cursor.mode = .normal
  place : state.At tokens state.cursor.place
  lexed : ∀ token ∈ tokens, token.kind ≠ .swizzle

/-- What every rule keeps, even one that fails: the next may start where it ends, and what it has
reported and declared can be forgotten. -/
structure Onward (tokens : List Token) (first last : GrammarState) : Prop where
  ready : last.Ready tokens
  reports : first.reports <+: last.reports
  scopes : first.scopes.Since last.scopes

/-- What some children are that have been read on the way from one state to another: every node
below them is shaped as it must; and if there is no error among them, they are the tokens between
the places of the states. -/
structure Stretch (tokens : List Token) (first : GrammarState) (children : List Child)
    (last : GrammarState) : Prop extends Onward tokens first last where
  plain : ∀ leaf ∈ Child.tokens children, leaf.kind ≠ .swizzle
  shaped : ∀ node ∈ Node.preorder (Child.nodes children),
    node.Shaped tokens ∧ node.kind ≠ .kernelFunctionDefinition
  covers : Node.errors (Child.nodes children) = [] →
    Covers tokens first.cursor.place (Node.leavesOfChildren children) last.cursor.place

namespace Covers

variable {tokens : List Token} {leaf : Token} {start stop : Nat}

theorem stop_eq (covers : Covers tokens start [leaf] stop) : stop = leaf.span.stop := by
  cases covers with
  | token _ rest => cases rest; rfl
  | accessor _ _ joined rest =>
    cases rest
    rw [Word.span_accessorOf? joined]

end Covers

namespace GrammarState.Ready

variable {tokens : List Token} {state after : GrammarState} {leaf : Token} {rest : List Word}
  {mode : LexMode}

/-- Whatever is read, by a dot as a dot or with component names, is the next of the stream. -/
theorem pass (ready : state.Ready tokens) (read : Word.read? mode state.cursor.rest = some (leaf, rest)) :
    (state.pass leaf rest).Ready tokens ∧
      Covers tokens state.cursor.place [leaf] (state.pass leaf rest).cursor.place := by
  have here := ready.place
  unfold GrammarState.At at here
  rw [here] at read
  obtain ⟨stop, atStop, covers⟩ := Word.read?_covers read
  have place : (state.pass leaf rest).cursor.place = stop := covers.stop_eq.symm
  rw [place]
  refine ⟨⟨ready.mode, ?_, ready.lexed⟩, covers⟩
  rw [place]
  exact atStop

theorem still (ready : state.Ready tokens) (same : after.cursor = state.cursor) : after.Ready tokens where
  mode := same ▸ ready.mode
  place := by
    have here := ready.place
    unfold GrammarState.At at here ⊢
    rwa [same]
  lexed := ready.lexed

/-- The current token is the one of the stream with the number of the place. -/
theorem current (ready : state.Ready tokens) (found : state.cursor.peek? 0 = some leaf) :
    ∃ token, tokens[state.cursor.place]? = some token ∧
      leaf = token.mapSpan fun _ => ⟨state.cursor.place, state.cursor.place + 1⟩ := by
  have here := ready.place
  unfold GrammarState.At at here
  unfold Cursor.peek? Word.peek? at found
  rw [ready.mode, here] at found
  cases others : tokens.drop state.cursor.place with
  | nil => simp [others, Word.ofTokensFrom, Word.read?] at found
  | cons token rest =>
    rw [others] at found
    refine ⟨token, ?_, (Option.some.inj found).symm⟩
    rw [← Nat.add_zero state.cursor.place, ← List.getElem?_drop, others, List.getElem?_cons_zero]

theorem current_none (ready : state.Ready tokens) (ended : state.cursor.peek? 0 = none) :
    tokens[state.cursor.place]? = none := by
  have here := ready.place
  unfold GrammarState.At at here
  rw [Cursor.peek?, Word.peek?, ready.mode, here] at ended
  cases others : tokens.drop state.cursor.place with
  | nil => exact List.getElem?_eq_none (List.drop_eq_nil_iff.mp others)
  | cons token rest => simp [others, Word.ofTokensFrom, Word.read?] at ended

theorem current_kind (ready : state.Ready tokens) (found : state.cursor.peek? 0 = some leaf) :
    leaf.kind ≠ .swizzle := by
  obtain ⟨token, listed, rfl⟩ := ready.current found
  exact ready.lexed token (List.mem_of_getElem? listed)

end GrammarState.Ready

namespace Onward

variable {tokens : List Token} {first middle last : GrammarState}

theorem refl (ready : first.Ready tokens) : Onward tokens first first :=
  ⟨ready, List.prefix_rfl, .refl _⟩

theorem trans (front : Onward tokens first middle) (back : Onward tokens middle last) :
    Onward tokens first last :=
  ⟨back.ready, front.reports.trans back.reports, front.scopes.trans back.scopes⟩

theorem still (keeps : Onward tokens first middle) (cursor : last.cursor = middle.cursor)
    (reports : middle.reports <+: last.reports) (scopes : middle.scopes.Since last.scopes) :
    Onward tokens first last :=
  ⟨keeps.ready.still cursor, keeps.reports.trans reports, keeps.scopes.trans scopes⟩

theorem report (keeps : Onward tokens first last) (error : ParseError) :
    Onward tokens first (last.report error) :=
  keeps.still rfl (List.prefix_append _ _) (.refl _)

end Onward

namespace Stretch

variable {tokens : List Token} {first middle last : GrammarState} {children front back : List Child}

/-- Where no token has been taken, scopes may have changed and errors may have been reported. -/
theorem still (ready : first.Ready tokens) (cursor : last.cursor = first.cursor)
    (reports : first.reports <+: last.reports) (scopes : first.scopes.Since last.scopes) :
    Stretch tokens first [] last where
  ready := ready.still cursor
  reports := reports
  scopes := scopes
  plain := List.forall_mem_nil _
  shaped := by
    rw [Child.nodes, Node.preorder_nil]
    exact List.forall_mem_nil _
  covers _ := by
    rw [cursor, Node.leavesOfChildren_nil]
    exact .nothing _

theorem join (before : Stretch tokens first front middle) (after : Stretch tokens middle back last) :
    Stretch tokens first (front ++ back) last where
  toOnward := before.toOnward.trans after.toOnward
  plain := by
    rw [Child.tokens_append]
    exact List.forall_mem_append.mpr ⟨before.plain, after.plain⟩
  shaped := by
    rw [Child.nodes_append, Node.preorder_append]
    exact List.forall_mem_append.mpr ⟨before.shaped, after.shaped⟩
  covers proper := by
    rw [Child.nodes_append, Node.errors_append, List.append_eq_nil_iff] at proper
    rw [Node.leavesOfChildren_append]
    exact (before.covers proper.1).append (after.covers proper.2)

/-- Fields make no difference to what is read. -/
theorem refield (stretch : Stretch tokens first front last) (children : List Child)
    (same : front.map Child.bare = children.map Child.bare) : Stretch tokens first children last where
  toOnward := stretch.toOnward
  plain := by
    rw [← Child.tokens_bare, ← same, Child.tokens_bare]
    exact stretch.plain
  shaped := by
    rw [← Child.nodes_bare, ← same, Child.nodes_bare]
    exact stretch.shaped
  covers := by
    rw [← Child.nodes_bare, ← Node.leavesOfChildren_bare, ← same, Child.nodes_bare,
      Node.leavesOfChildren_bare]
    exact stretch.covers

/-- A node around what has been read. -/
theorem wrap {kind : NodeKind} (stretch : Stretch tokens first children last)
    (shaped : (Node.make kind children).Shaped tokens) (proper : kind ≠ .error)
    (item : kind ≠ .kernelFunctionDefinition) :
    Stretch tokens first [(Node.make kind children).toChild] last where
  toOnward := stretch.toOnward
  plain := List.forall_mem_nil _
  shaped := by
    rw [Node.toChild, Child.nodes, Child.nodes, ← Node.descendants, Node.descendants_make]
    exact List.forall_mem_cons.mpr ⟨⟨shaped, item⟩, stretch.shaped⟩
  covers free := by
    rw [Node.toChild, Child.nodes, Child.nodes, Node.errors_make proper] at free
    rw [Node.toChild, Node.leavesOfChildren_node, Node.leaves_make, Node.leavesOfChildren_nil,
      List.append_nil]
    exact stretch.covers free

end Stretch

end OpenCLTree

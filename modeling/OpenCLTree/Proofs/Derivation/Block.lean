import OpenCLTree.Proofs.Derivation.Declaration
import OpenCLTree.Proofs.Derivation.Recovery
import OpenCLTree.Grammar.Statement

namespace OpenCLTree

/-- What the items of a block are that have been read: none begins with the name of a type unless it
declares something or is labeled. -/
structure BlockItems (tokens : List Token) (first : GrammarState) (children : List Child)
    (last : GrammarState) : Prop extends Derivation tokens first children last where
  items : Node.errors (Child.nodes children) = [] → Resolves true first.scopes children last.scopes

namespace BlockItems

variable {tokens : List Token} {first middle last : GrammarState} {front back : List Child}

theorem nothing (ready : first.Ready tokens) : BlockItems tokens first [] first :=
  ⟨.nothing ready, fun _ => .nothing _⟩

theorem join (before : BlockItems tokens first front middle) (after : BlockItems tokens middle back last) :
    BlockItems tokens first (front ++ back) last where
  toDerivation := before.toDerivation.join after.toDerivation
  items free := by
    rw [Child.nodes_append, Node.errors_append, List.append_eq_nil_iff] at free
    exact (before.items free.1).append (after.items free.2)

end BlockItems

/-- A value in a block is no item of it. -/
theorem Resolves.ofValues {before after : Scopes} {children : List Child}
    (resolves : Resolves false before children after)
    (values : ∀ field inner, Child.node field inner ∈ children → field = some .value) :
    Resolves true before children after := by
  induction resolves with
  | nothing scopes => exact .nothing scopes
  | token _ ih => exact .token (ih fun field inner member => values field inner (List.mem_cons_of_mem _ member))
  | @node _ _ _ field inner _ walks uses _ ih =>
    have here := values field inner List.mem_cons_self
    refine .node walks ⟨uses.type, fun _ other => absurd here other, uses.call, uses.builtin⟩
      (ih fun field inner member => values field inner (List.mem_cons_of_mem _ member))

namespace Covers

variable {tokens leaves : List Token} {start stop : Nat} {leaf : Token}

/-- A name at the start of some leaves is the next token of the stream. -/
theorem head_identifier (covers : Covers tokens start leaves stop) (head : leaves.head? = some leaf)
    (name : leaf.kind = .identifier) :
    ∃ token, tokens[start]? = some token ∧ leaf = token.mapSpan fun _ => ⟨start, start + 1⟩ := by
  cases covers with
  | nothing => cases head
  | token here _ =>
    cases head
    exact ⟨_, here, rfl⟩
  | accessor _ _ joined _ =>
    cases head
    unfold Word.accessorOf? at joined
    split at joined <;> cases joined
    cases name

end Covers

namespace GrammarState.Ready

variable {tokens : List Token} {state : GrammarState} {token : Token}

theorem current_eq (ready : state.Ready tokens) (listed : tokens[state.cursor.place]? = some token) :
    state.cursor.peek? 0 =
      some (token.mapSpan fun _ => ⟨state.cursor.place, state.cursor.place + 1⟩) := by
  cases current : state.cursor.peek? 0 with
  | none => cases (ready.current_none current).symm.trans listed
  | some found =>
    obtain ⟨token', listed', rfl⟩ := ready.current current
    rw [listed, Option.some.injEq] at listed'
    rw [listed']

end GrammarState.Ready

/-- What is read in a scope of its own leaves those around it. -/
theorem Stretch.inScope {tokens : List Token} {first last : GrammarState} {children : List Child}
    (ready : first.Ready tokens) (stretch : Stretch tokens (first.mapScopes Scopes.enter) children last) :
    Stretch tokens first children (last.mapScopes Scopes.leave) := by
  have enter : Stretch tokens first [] (first.mapScopes Scopes.enter) :=
    .still ready rfl List.prefix_rfl first.scopes.since_enter
  have leave : Stretch tokens last [] (last.mapScopes Scopes.leave) :=
    .still stretch.ready rfl List.prefix_rfl last.scopes.since_leave
  simpa using enter.join (stretch.join leave)

/-- A node that is a scope of its own, between the first and the last of its tokens. -/
theorem Derivation.scope {tokens : List Token} {first outer inner last : GrammarState}
    {children : List Child} (front back : List Token) (kind : NodeKind) (opens : kind.opensScope = true)
    (atFront : Derivation tokens first (front.map Token.toChild) outer)
    (inside : Stretch tokens (outer.mapScopes Scopes.enter) children inner)
    (resolves : Node.errors (Child.nodes children) = [] →
      Resolves kind.isBlock outer.scopes.enter children inner.scopes)
    (atBack : Derivation tokens (inner.mapScopes Scopes.leave) (back.map Token.toChild) last) :
    Derivation tokens first
      [(Node.make kind (front.map Token.toChild ++ children ++ back.map Token.toChild)).toChild] last := by
  have stretch := (atFront.toStretch.join (inside.inScope atFront.ready)).join atBack.toStretch
  have known : kind.bindingField? = none ∧ kind.isDefinition = false ∧ kind.isCommon = true ∧
      kind.isName = false ∧ kind.usesNames = false := by
    cases kind <;> first | exact ⟨rfl, rfl, rfl, rfl, rfl⟩ | cases opens
  have other (kind' : NodeKind) (closed : kind'.opensScope = false) : kind ≠ kind' := by
    rintro rfl
    cases closed.symm.trans opens
  obtain ⟨binding, definition, plain, noName, unused⟩ := known
  refine .node stretch rfl (Node.shaped_of_common stretch.plain plain noName) (other _ rfl) (other _ rfl)
    (fun free sort => ?_) fun _ => Node.usesNames_of_other unused
  simp only [Child.nodes_append, Node.errors_append, List.append_eq_nil_iff] at free
  obtain ⟨⟨inFront, inMiddle⟩, inBack⟩ := free
  have atOuter := (Resolves.tokens_iff front).mp (atFront.resolves inFront)
  have atLast := (Resolves.tokens_iff back).mp (atBack.resolves inBack)
  have inScope := ((Resolves.tokens_iff front).mpr rfl).append (resolves inMiddle)
  rw [atLast]
  rw [atOuter] at inScope
  exact Node.walks_scope_of_resolves opens binding definition
    (inScope.append ((Resolves.tokens_iff back).mpr rfl))

namespace Rule

variable {tokens : List Token} {sub : Grammar} {first state : GrammarState}

theorem localDeclaration_gives :
    (localDeclaration sub).Gives fun node => node.kind = .declaration ∨ node.kind = .typeDefinition := by
  have either (typedef : Bool) (children : List Child) :
      (Node.make (if typedef then .typeDefinition else .declaration) children).kind = .declaration ∨
        (Node.make (if typedef then .typeDefinition else .declaration) children).kind = .typeDefinition := by
    cases typedef
    · exact .inl rfl
    · exact .inr rfl
  refine gives_bind fun specifiers => gives_bind fun found => ?_
  split
  · exact gives_pure (either _ _)
  · refine gives_bind fun first => gives_bind fun here => ?_
    split
    · rename_i body atBody
      split at atBody <;> cases atBody
    · exact gives_bind fun rest => gives_pure (either _ _)

/-- What is read as a statement in a block begins with the name of a type only if it is labeled. -/
theorem atLocalDeclaration_leads {done : Bool → GrammarState → Prop} {failed : GrammarState → Prop}
    (yes : done true state)
    (no : (∀ token, state.cursor.peek? 0 = some token → token.kind = .identifier →
      state.scopes.isType token.text = true →
        (state.cursor.peek? 1).map (·.kind) = some (.punct .colon)) → done false state) :
    atLocalDeclaration.Leads state done failed := by
  have either (starts : Bool) (label : starts = false → ∀ token, state.cursor.peek? 0 = some token →
      token.kind = .identifier → state.scopes.isType token.text = true →
        (state.cursor.peek? 1).map (·.kind) = some (.punct .colon)) : done starts state := by
    cases starts with
    | true => exact yes
    | false => exact no (label rfl)
  unfold atLocalDeclaration
  rw [leads_bind, leads_current]
  cases current : state.cursor.peek? 0 with
  | none =>
    refine no fun found same => ?_
    cases current.symm.trans same
  | some token =>
    dsimp only
    unfold startsLocalDeclaration
    rw [leads_bind, leads_scopes]
    split
    · rw [leads_bind, leads_peek, leads_pure]
      refine either _ fun starts found same _ isType => ?_
      rw [current, Option.some.injEq] at same
      subst same
      simpa [isType] using starts
    · rename_i other
      refine either _ fun _ found same name => absurd name ?_
      rw [current, Option.some.injEq] at same
      subst same
      exact other

/-- An item of a block begins with the name of a type only if it declares something or is labeled. -/
theorem blockItem_leads (derives : sub.Derives tokens) (ready : state.Ready tokens) :
    (blockItem sub).Leads state (fun node after => BlockItems tokens state [node.toChild] after)
      (Onward tokens state) := by
  have item {node : Node} {after : GrammarState} (read : Derivation tokens state [node.toChild] after)
      (sorted : Node.errors [node] = [] → node.BeginsWithType state.scopes →
        node.kind = .declaration ∨ node.kind = .typeDefinition ∨ node.kind = .labeledStatement) :
      BlockItems tokens state [node.toChild] after := by
    refine ⟨read, fun free => ?_⟩
    obtain ⟨walks, uses⟩ := (read.resolves free).single
    exact .node walks ⟨uses.type, fun _ _ => sorted free, uses.call, uses.builtin⟩ (.nothing _)
  unfold blockItem
  rw [leads_bind]
  refine atLocalDeclaration_leads ?_ fun label => ?_
  · refine (Derives.withFact (localDeclaration_derives derives) localDeclaration_gives ready).mono
      (fun node after known => item known.2 fun _ _ => ?_) fun _ keeps => keeps
    exact known.1.imp_right .inl
  · have labeled : sub.statement.Leads state (fun node _ =>
        (state.cursor.peek? 0).map (·.kind) = some .identifier →
          (state.cursor.peek? 1).map (·.kind) = some (.punct .colon) → node.kind = .labeledStatement)
        fun _ => True := by
      by_cases isLabel : (state.cursor.peek? 0).map (·.kind) = some .identifier ∧
          (state.cursor.peek? 1).map (·.kind) = some (.punct .colon)
      · exact (derives.labeled isLabel.1 isLabel.2).mono (fun _ _ kind _ _ => kind) fun _ _ => trivial
      · exact (derives.statement ready).mono (fun _ _ _ name colon => absurd ⟨name, colon⟩ isLabel)
          fun _ _ => trivial
    refine ((derives.statement ready).and labeled).mono (fun node after known => ?_) fun _ keeps => keeps.1
    have read : Derivation tokens state [node.toChild] after := known.1
    refine item read fun free ⟨leaf, head, name, isType⟩ => .inr (.inr ?_)
    have covers := read.covers free
    rw [Node.toChild, Node.leavesOfChildren_node, Node.leavesOfChildren_nil, List.append_nil] at covers
    obtain ⟨token, listed, rfl⟩ := covers.head_identifier head name
    have current := ready.current_eq listed
    exact known.2 (by rw [current]; exact congrArg some name) (label _ current name isType)

theorem blockItems_leads {stops : List TokenKind} (derives : sub.Derives tokens)
    (ready : state.Ready tokens) :
    (blockItems sub stops).Leads state (BlockItems tokens state) (Onward tokens state) := by
  unfold blockItems many
  refine Leads.loop (BlockItems tokens state) ?_ (.nothing ready)
  intro collected s1 sofar
  rw [leads_bind, leads_bind, leads_currentKind]
  split
  · exact sofar
  · split
    · exact sofar
    · rw [leads_bind]
      refine (recovering_leads (blockItem_leads derives sofar.ready) fun node after read isError =>
        ⟨read, fun free => ?_⟩).mono (fun node after read => ?_) fun _ keeps => sofar.toOnward.trans keeps
      · exact absurd free (Node.errors_ne_nil isError)
      · exact sofar.join read

theorem inScope_leads {α : Type} {rule : Rule α} (inside : α → GrammarState → Prop)
    (ready : state.Ready tokens)
    (leads : rule.Leads (state.mapScopes Scopes.enter) inside (Onward tokens (state.mapScopes Scopes.enter))) :
    (inScope rule).Leads state
      (fun value after => ∃ inner, after = inner.mapScopes Scopes.leave ∧ inside value inner)
      (Onward tokens state) := by
  have enter : Onward tokens state (state.mapScopes Scopes.enter) :=
    (Onward.refl ready).still rfl List.prefix_rfl state.scopes.since_enter
  unfold inScope
  rw [leads_bind, mapScopes, leads_modify, leads_closing]
  refine leads.mono (fun _ inner known => ⟨inner, rfl, known⟩) fun after keeps => ?_
  exact (enter.trans keeps).still rfl List.prefix_rfl after.scopes.since_leave

theorem compoundStatement_derives (derives : sub.Derives tokens) :
    (compoundStatement sub).Derives tokens := by
  intro state ready
  refine (Derivation.nothing ready).step expect_derives fun opener s1 atOpener _ => ?_
  have enter : (s1.mapScopes Scopes.enter).Ready tokens := atOpener.ready.still rfl
  rw [leads_bind]
  refine (inScope_leads _ atOpener.ready (blockItems_leads derives enter)).mono ?_
    fun _ keeps => atOpener.toOnward.trans keeps
  rintro items _ ⟨s2, rfl, inside⟩
  have before := atOpener.toOnward.trans (inside.toStretch.inScope atOpener.ready).toOnward
  rw [leads_bind]
  refine (expect_derives before.ready).mono (fun closer last atCloser => ?_) fun _ keeps =>
    before.trans keeps
  exact .scope [opener] [closer] .compoundStatement rfl atOpener
    inside.toStretch inside.items atCloser

end Rule

end OpenCLTree

import OpenCLTree.Proofs.Grammar.Reads
import OpenCLTree.Proofs.Tree.Made
import OpenCLTree.Proofs.Tree.Tiles

namespace OpenCLTree

theorem Word.span_accessorOf? {place : Nat} {dot name accessor : Token}
    (joined : accessorOf? place dot name = some accessor) : accessor.span = ⟨place, place + 2⟩ := by
  unfold accessorOf? at joined
  split at joined <;> cases joined
  rfl

/-- Whether some leaves, whose spans count tokens, are the tokens of a stream from the number
`start` up to `stop`. An accessor stands for two tokens. -/
inductive Covers (tokens : List Token) : Nat → List Token → Nat → Prop
  | nothing (place : Nat) : Covers tokens place [] place
  | token {start stop : Nat} {token : Token} {rest : List Token} :
      tokens[start]? = some token → Covers tokens (start + 1) rest stop →
      Covers tokens start ({ token with span := ⟨start, start + 1⟩ } :: rest) stop
  | accessor {start stop : Nat} {dot name accessor : Token} {rest : List Token} :
      tokens[start]? = some dot → tokens[start + 1]? = some name →
      Word.accessorOf? start dot name = some accessor → Covers tokens (start + 2) rest stop →
      Covers tokens start (accessor :: rest) stop

namespace Covers

variable {tokens leaves front back : List Token} {start middle stop : Nat}

theorem append (before : Covers tokens start front middle) (after : Covers tokens middle back stop) :
    Covers tokens start (front ++ back) stop := by
  induction before with
  | nothing => exact after
  | token here _ ih => exact .token here (ih after)
  | accessor here next joined _ ih => exact .accessor here next joined (ih after)

theorem tiles (covers : Covers tokens start leaves stop) :
    Span.Tiles start (leaves.map (·.span)) stop := by
  induction covers with
  | nothing place => exact .nothing place
  | token _ _ ih => exact .span (Nat.lt_succ_self _) ih
  | @accessor start _ _ _ accessor _ _ _ joined _ ih =>
    rw [List.map_cons, Word.span_accessorOf? joined]
    exact .span (Nat.lt_add_of_pos_right Nat.two_pos) ih

theorem stop_le (covers : Covers tokens start leaves stop) (within : start ≤ tokens.length) :
    stop ≤ tokens.length := by
  induction covers with
  | nothing => exact within
  | token here _ ih => exact ih (List.getElem?_eq_some_iff.mp here).1
  | accessor _ next _ _ ih => exact ih (List.getElem?_eq_some_iff.mp next).1

theorem within (covers : Covers tokens start leaves stop) (less : start < stop) :
    stop ≤ tokens.length := by
  cases covers with
  | nothing => exact absurd less (Nat.lt_irrefl _)
  | token here after => exact after.stop_le (List.getElem?_eq_some_iff.mp here).1
  | accessor _ next _ after => exact after.stop_le (List.getElem?_eq_some_iff.mp next).1

theorem leaves_ne_nil (covers : Covers tokens start leaves stop) (less : start < stop) :
    leaves ≠ [] := by
  cases covers with
  | nothing => exact absurd less (Nat.lt_irrefl _)
  | token | accessor => exact List.cons_ne_nil _ _

end Covers

/-- Whether the words to come are those of a stream from the number `place` on. -/
def GrammarState.At (tokens : List Token) (place : Nat) (state : GrammarState) : Prop :=
  state.cursor.rest = Word.ofTokensFrom place (tokens.drop place)

/-- Whether the span of a node counts the tokens that are its leaves. -/
def Node.IsPlaced (tokens : List Token) (node : Node) : Prop :=
  ∃ start stop, start < stop ∧ node.span = ⟨start, stop⟩ ∧ Covers tokens start node.leaves stop

/-- Whether some children stand for the tokens from `start` up to `stop`, and so does every
node below them for the tokens of its span. -/
structure Covering (tokens : List Token) (start : Nat) (children : List Child) (stop : Nat) :
    Prop where
  tiles : Span.Tiles start (children.map Child.span) stop
  leaves : Covers tokens start (Node.leavesOfChildren children) stop
  placed : ∀ node ∈ Node.preorder (Child.nodes children), node.IsPlaced tokens

namespace Covering

variable {tokens leaves : List Token} {start middle stop : Nat} {children front back : List Child}

theorem join (before : Covering tokens start front middle) (after : Covering tokens middle back stop) :
    Covering tokens start (front ++ back) stop where
  tiles := by
    rw [List.map_append]
    exact before.tiles.append after.tiles
  leaves := by
    rw [Node.leavesOfChildren_append]
    exact before.leaves.append after.leaves
  placed := by
    rw [Child.nodes_append, Node.preorder_append]
    intro node member
    exact (List.mem_append.mp member).elim (before.placed node) (after.placed node)

theorem ofLeaves (covers : Covers tokens start leaves stop) :
    Covering tokens start (leaves.map Token.toChild) stop where
  tiles := by
    rw [List.map_map]
    exact covers.tiles
  leaves := by
    rw [Node.leavesOfChildren_tokens]
    exact covers
  placed := by
    rw [Child.nodes_tokens, Node.preorder_nil]
    exact List.forall_mem_nil _

theorem wrap {kind : NodeKind}
    (covering : Covering tokens start (children.map Child.bare) stop)
    (nonempty : children ≠ []) :
    Covering tokens start [(Node.make kind children).toChild] stop := by
  have tiles : Span.Tiles start (children.map Child.span) stop := by
    have same : Child.span ∘ Child.bare = Child.span := by
      funext child
      cases child <;> rfl
    simpa only [List.map_map, same] using covering.tiles
  have leaves := covering.leaves
  rw [Node.leavesOfChildren_bare] at leaves
  have less := tiles.start_lt_stop (by simpa using nonempty)
  have span : (Node.make kind children).span = ⟨start, stop⟩ := Child.extent_of_tiles tiles nonempty
  refine ⟨?_, by simpa [Node.toChild] using leaves, ?_⟩
  · simp only [List.map_cons, List.map_nil, Node.toChild, Child.span, span]
    exact .span less (.nothing stop)
  · intro node member
    simp only [Node.toChild, Child.nodes, Node.preorder_cons, Node.preorder_nil,
      List.append_nil, Node.descendants_make, List.mem_cons] at member
    obtain rfl | below := member
    · exact ⟨start, stop, less, span, by rwa [Node.leaves_make]⟩
    · exact covering.placed node (by rwa [Child.nodes_bare])

end Covering

theorem Word.read?_covers {tokens : List Token} {start : Nat} {mode : LexMode} {leaf : Token}
    {rest : List Word}
    (read : read? mode (ofTokensFrom start (tokens.drop start)) = some (leaf, rest)) :
    ∃ stop, rest = ofTokensFrom stop (tokens.drop stop) ∧ Covers tokens start [leaf] stop := by
  cases here : tokens.drop start with
  | nil => simp [here, ofTokensFrom, read?] at read
  | cons token others =>
    have first : tokens[start]? = some token := by
      rw [← Nat.add_zero start, ← List.getElem?_drop, here, List.getElem?_cons_zero]
    have next : tokens[start + 1]? = others.head? := by
      rw [← List.getElem?_drop, here, List.getElem?_cons_succ, List.head?_eq_getElem?]
    have after : tokens.drop (start + 1) = others := by
      rw [← List.tail_drop, here, List.tail_cons]
    rw [here, ofTokensFrom] at read
    unfold read? at read
    dsimp only at read
    split at read
    · rename_i accessor joined
      obtain ⟨rfl, rfl⟩ := Prod.mk.inj (Option.some.inj read)
      cases others with
      | nil => cases joined
      | cons name others =>
        refine ⟨start + 2, ?_, .accessor first next joined (.nothing _)⟩
        rw [← List.tail_drop, after, List.tail_cons]
        rfl
    · obtain ⟨rfl, rfl⟩ := Prod.mk.inj (Option.some.inj read)
      exact ⟨start + 1, by rw [after], .token first (.nothing _)⟩

/-- Whatever is read covers the tokens between the places before and after it. -/
theorem ReadsWith.covers {remarks : Prop} {first last : GrammarState} {children : List Child}
    {tokens : List Token} {start : Nat} (reads : ReadsWith remarks first children last)
    (here : first.At tokens start) :
    ∃ stop, last.At tokens stop ∧ Covering tokens start children stop := by
  induction reads generalizing start with
  | nothing | declared | remarked => exact ⟨start, here, .ofLeaves (.nothing start)⟩
  | join _ _ ihFront ihBack =>
    obtain ⟨middle, there, before⟩ := ihFront here
    obtain ⟨stop, atStop, after⟩ := ihBack there
    exact ⟨stop, atStop, before.join after⟩
  | token read =>
    unfold GrammarState.At at here
    rw [here] at read
    obtain ⟨stop, rest, covers⟩ := Word.read?_covers read
    exact ⟨stop, rest, .ofLeaves covers⟩
  | node composes _ ih =>
    obtain ⟨stop, atStop, covering⟩ := ih here
    exact ⟨stop, atStop, covering.wrap composes.nonempty⟩
  | @duplicate _ _ token _ _ _ ih =>
    obtain ⟨stop, atStop, covering⟩ := ih here
    exact ⟨stop, atStop, covering.wrap (List.cons_ne_nil _ _)⟩
  | recovered _ _ _ nonempty ihTaken ihSkipped =>
    obtain ⟨middle, there, before⟩ := ihTaken here
    obtain ⟨stop, atStop, after⟩ := ihSkipped there
    have skipped := after.leaves
    rw [Node.leavesOfChildren_tokens] at skipped
    refine ⟨stop, atStop, .wrap ?_ (by simpa using nonempty)⟩
    simpa using Covering.ofLeaves (before.leaves.append skipped)
  | inScope _ ih | deeper _ ih => exact ih here

/-- Every node that is read reaches over its children. -/
theorem ReadsWith.made {remarks : Prop} {first last : GrammarState} {children : List Child}
    (reads : ReadsWith remarks first children last) :
    ∀ node ∈ Node.preorder (Child.nodes children), node.IsMade := by
  have single {kind : NodeKind} {inner : List Child} (nonempty : inner ≠ [])
      (below : ∀ node ∈ Node.preorder (Child.nodes inner), node.IsMade) :
      ∀ node ∈ Node.preorder (Child.nodes [(Node.make kind inner).toChild]), node.IsMade := by
    rw [Node.toChild, Child.nodes, Child.nodes, Node.preorder_cons, Node.preorder_nil,
      List.append_nil, Node.descendants_make]
    exact List.forall_mem_cons.mpr ⟨Node.isMade_make kind nonempty, below⟩
  have leaves (tokens : List Token) :
      ∀ node ∈ Node.preorder (Child.nodes (tokens.map Token.toChild)), node.IsMade := by
    rw [Child.nodes_tokens, Node.preorder_nil]
    exact List.forall_mem_nil _
  induction reads with
  | nothing | declared | remarked => exact leaves []
  | join _ _ ihFront ihBack =>
    rw [Child.nodes_append, Node.preorder_append]
    exact List.forall_mem_append.mpr ⟨ihFront, ihBack⟩
  | token => exact leaves [_]
  | node composes _ ih =>
    rw [Child.nodes_bare] at ih
    exact single composes.nonempty ih
  | duplicate => exact single (List.cons_ne_nil _ _) (leaves [_])
  | recovered _ _ _ nonempty => exact single (by simpa using nonempty) (leaves _)
  | inScope _ ih | deeper _ ih => exact ih

end OpenCLTree

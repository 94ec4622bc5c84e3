import OpenCLTree.Proofs.Grammar.Coverage
import OpenCLTree.Proofs.Lexical.Stream
import OpenCLTree.Proofs.Reading

namespace OpenCLTree

/-- Whether a span lies inside another one. -/
def Span.isWithin (inner outer : Span) : Bool :=
  decide (outer.start ≤ inner.start) && decide (inner.stop ≤ outer.stop)

/-- The tokens that a leaf stands for: an accessor is a dot and the name right after it. -/
def Token.parts (leaf : Token) : List Token :=
  match leaf.kind with
  | .swizzle =>
    let text := leaf.text.toList
    let middle := leaf.span.start + 1
    [⟨.punct .dot, String.ofList (text.take 1), ⟨leaf.span.start, middle⟩, leaf.newlineBefore⟩,
      ⟨.identifier, String.ofList (text.drop 1), ⟨middle, leaf.span.stop⟩, false⟩]
  | _ => [leaf]

/-- Whether a node has a leaf, reaches from its first leaf to its last, and its leaves are the
tokens of a stream that lie inside it. -/
structure Node.Spells (tokens : List Token) (node : Node) : Prop where
  extent : ∃ first last, node.leaves.head? = some first ∧ node.leaves.getLast? = some last ∧
    node.span = ⟨first.span.start, last.span.stop⟩
  leaves : node.leaves.flatMap Token.parts = tokens.filter (·.span.isWithin node.span)

namespace Token.Ordered

variable {size start : Nat} {front middle back : List Token} {first last : Token}

theorem within_middle (ordered : Ordered size start (front ++ (middle ++ back)))
    (atFirst : middle.head? = some first) (atLast : middle.getLast? = some last) :
    ∀ token ∈ middle, token.span.isWithin ⟨first.span.start, last.span.stop⟩ = true := by
  have nonempty := ordered.nonempty
  have pairwise := (List.pairwise_append.mp (List.pairwise_append.mp ordered.pairwise).2.1).1
  intro token member
  have longer := (nonempty token (by simp [member])).1
  simp only [Span.isWithin, Bool.and_eq_true, decide_eq_true_eq]
  constructor
  · obtain ⟨rest, rfl⟩ := List.head?_eq_some_iff.mp atFirst
    obtain rfl | later := List.mem_cons.mp member
    · exact Nat.le_refl _
    · have := (nonempty first (by simp)).1
      have := (List.pairwise_cons.mp pairwise).1 token later
      omega
  · obtain ⟨rest, rfl⟩ := List.getLast?_eq_some_iff.mp atLast
    obtain earlier | atEnd := List.mem_append.mp member
    · have := (nonempty last (by simp)).1
      have := (List.pairwise_append.mp pairwise).2.2 token earlier last (List.mem_singleton_self _)
      omega
    · obtain rfl := List.mem_singleton.mp atEnd
      exact Nat.le_refl _

/-- The tokens inside the span from one token to another are those from the one up to the
other. -/
theorem filter_isWithin (ordered : Ordered size start (front ++ (middle ++ back)))
    (atFirst : middle.head? = some first) (atLast : middle.getLast? = some last) :
    (front ++ (middle ++ back)).filter (·.span.isWithin ⟨first.span.start, last.span.stop⟩) =
      middle := by
  have nonempty := ordered.nonempty
  have inside := ordered.within_middle atFirst atLast
  obtain ⟨_, pairwise, frontBefore⟩ := List.pairwise_append.mp ordered.pairwise
  have backAfter := (List.pairwise_append.mp pairwise).2.2
  have memFirst := List.mem_of_head? atFirst
  have memLast := List.mem_of_getLast? atLast
  have before : front.filter (·.span.isWithin ⟨first.span.start, last.span.stop⟩) = [] := by
    refine List.filter_eq_nil_iff.mpr fun token member => ?_
    have := (nonempty token (by simp [member])).1
    have := frontBefore token member first (List.mem_append_left _ memFirst)
    simp only [Span.isWithin, Bool.and_eq_true, decide_eq_true_eq]
    omega
  have after : back.filter (·.span.isWithin ⟨first.span.start, last.span.stop⟩) = [] := by
    refine List.filter_eq_nil_iff.mpr fun token member => ?_
    have := (nonempty token (by simp [member])).1
    have := backAfter last memLast token member
    simp only [Span.isWithin, Bool.and_eq_true, decide_eq_true_eq]
    omega
  rw [List.filter_append, List.filter_append, before, after, List.filter_eq_self.mpr inside,
    List.nil_append, List.append_nil]

end Token.Ordered

section Located

variable {size start stop : Nat} {tokens leaves : List Token} {first last : Token} {span : Span}

theorem Span.locate_eq (less : start < stop) (atFirst : tokens[start]? = some first)
    (atLast : tokens[stop - 1]? = some last) :
    Span.placeIn tokens size ⟨start, stop⟩ =
      ⟨first.span.start, last.span.stop⟩ := by
  simp [Span.locate, less, atFirst, atLast]

theorem Span.locate_start (nonempty : span.start < span.stop) (within : span.stop ≤ tokens.length)
    (atFirst : tokens[span.start]? = some first) :
    (Span.placeIn tokens size span).start = first.span.start := by
  have atLast := List.getElem?_eq_getElem (show span.stop - 1 < tokens.length by omega)
  rw [show span = ⟨span.start, span.stop⟩ from rfl, Span.locate_eq nonempty atFirst atLast]

theorem Span.locate_stop (nonempty : span.start < span.stop) (within : span.stop ≤ tokens.length)
    (atLast : tokens[span.stop - 1]? = some last) :
    (Span.placeIn tokens size span).stop = last.span.stop := by
  have atFirst := List.getElem?_eq_getElem (show span.start < tokens.length by omega)
  rw [show span = ⟨span.start, span.stop⟩ from rfl, Span.locate_eq nonempty atFirst atLast]

theorem Token.parts_of_plain {token : Token} (plain : token.kind ≠ .swizzle) : token.parts = [token] := by
  unfold Token.parts
  split
  · exact absurd ‹_› plain
  · rfl

theorem Token.flatMap_parts (plain : ∀ leaf ∈ leaves, leaf.kind ≠ .swizzle) :
    leaves.flatMap Token.parts = leaves := by
  induction leaves with
  | nil => rfl
  | cons leaf rest ih =>
    obtain ⟨here, behind⟩ := List.forall_mem_cons.mp plain
    rw [List.flatMap_cons, parts_of_plain here, ih behind, List.singleton_append]

theorem parts_accessor {dot name accessor : Token} (simple : dot.IsSimple)
    (joined : Word.accessorOf? start dot name = some accessor)
    (newline : name.span.start = dot.span.stop → name.newlineBefore = false) :
    ({ accessor with span := ⟨dot.span.start, name.span.stop⟩ } : Token).parts = [dot, name] := by
  unfold Word.accessorOf? at joined
  split at joined
  · rename_i facts
    obtain ⟨isDot, isName, adjacent, _⟩ := facts
    obtain rfl := Option.some.inj joined
    obtain ⟨text, width⟩ := simple.dot isDot
    obtain ⟨_, _, ⟨_, _⟩, _⟩ := dot
    obtain ⟨_, _, ⟨_, _⟩, _⟩ := name
    simp_all [Token.parts]
  · cases joined

theorem take_drop_succ {token : Token} (here : tokens[start]? = some token) (less : start < stop) :
    (tokens.drop start).take (stop - start) =
      token :: (tokens.drop (start + 1)).take (stop - (start + 1)) := by
  obtain ⟨within, rfl⟩ := List.getElem?_eq_some_iff.mp here
  rw [List.drop_eq_getElem_cons within, show stop - start = stop - (start + 1) + 1 by omega,
    List.take_succ_cons]

/-- Leaves that cover some tokens stand for exactly these once they are located. -/
theorem Covers.parts (ordered : Token.Ordered size 0 tokens) (simple : ∀ token ∈ tokens, token.IsSimple)
    (covers : Covers tokens start leaves stop) :
    (leaves.map (·.mapSpan (Span.placeIn tokens size))).flatMap Token.parts =
      (tokens.drop start).take (stop - start) := by
  induction covers with
  | nothing => simp
  | @token start stop token rest here after ih =>
    have located : Token.mapSpan (Span.placeIn tokens size)
        { token with span := ⟨start, start + 1⟩ } = token := by
      rw [Token.mapSpan, Span.locate_eq (Nat.lt_succ_self start) here here]
    have single := Token.parts_of_plain (simple token (List.mem_of_getElem? here)).kind
    rw [take_drop_succ here (Nat.lt_of_succ_le after.tiles.start_le_stop), List.map_cons,
      List.flatMap_cons, located, single, ih, List.singleton_append]
  | @accessor start stop dot name accessor rest here next joined after ih =>
    have located : (accessor.mapSpan (Span.placeIn tokens size)).parts =
        [dot, name] := by
      have span : accessor.span = ⟨start, start + 2⟩ := Word.span_accessorOf? joined
      rw [Token.mapSpan, span, Span.locate_eq (Nat.lt_add_of_pos_right Nat.two_pos) here next]
      exact parts_accessor (simple dot (List.mem_of_getElem? here)) joined
        (ordered.newlineBefore_eq_false here next)
    have room := after.tiles.start_le_stop
    rw [take_drop_succ here (by omega), take_drop_succ next (by omega), List.map_cons,
      List.flatMap_cons, located, ih]
    rfl

namespace Node.IsPlaced

variable {node : Node}

theorem extent (placed : node.IsPlaced tokens) :
    ∃ first last, (node.mapSpan (Span.placeIn tokens size)).leaves.head? = some first ∧
      (node.mapSpan (Span.placeIn tokens size)).leaves.getLast? = some last ∧
      (node.mapSpan (Span.placeIn tokens size)).span = ⟨first.span.start, last.span.stop⟩ := by
  obtain ⟨start, stop, less, span, covers⟩ := placed
  have tiles := covers.tiles
  have within := covers.within less
  have some := covers.leaves_ne_nil less
  have atFirst := List.head?_eq_some_head some
  have atLast := List.getLast?_eq_some_getLast some
  generalize node.leaves.head some = first at atFirst
  generalize node.leaves.getLast some = last at atLast
  have startFirst := tiles.head (by rw [List.head?_map, atFirst, Option.map_some])
  have stopLast := tiles.getLast (by rw [List.getLast?_map, atLast, Option.map_some])
  have insideFirst := tiles.within _ (List.mem_map_of_mem (List.mem_of_head? atFirst))
  have insideLast := tiles.within _ (List.mem_map_of_mem (List.mem_of_getLast? atLast))
  have here := List.getElem?_eq_getElem (show start < tokens.length by omega)
  have there := List.getElem?_eq_getElem (show stop - 1 < tokens.length by omega)
  generalize tokens[start] = head at here
  generalize tokens[stop - 1] = foot at there
  refine ⟨first.mapSpan (Span.placeIn tokens size), last.mapSpan (Span.placeIn tokens size), ?_, ?_, ?_⟩
  · rw [leaves_mapSpan, List.head?_map, atFirst, Option.map_some]
  · rw [leaves_mapSpan, List.getLast?_map, atLast, Option.map_some]
  · rw [span_mapSpan, span, Span.locate_eq less here there, Token.mapSpan, Token.mapSpan,
      Span.locate_start insideFirst.2.1 (by omega) (startFirst ▸ here),
      Span.locate_stop insideLast.2.1 (by omega) (stopLast ▸ there)]

theorem parts_leaves (ordered : Token.Ordered size 0 tokens) (simple : ∀ token ∈ tokens, token.IsSimple)
    (placed : node.IsPlaced tokens) :
    (node.mapSpan (Span.placeIn tokens size)).leaves.flatMap Token.parts =
      tokens.filter (·.span.isWithin (node.mapSpan (Span.placeIn tokens size)).span) := by
  obtain ⟨start, stop, less, span, covers⟩ := placed
  have within := covers.within less
  have here := List.getElem?_eq_getElem (show start < tokens.length by omega)
  have there := List.getElem?_eq_getElem (show stop - 1 < tokens.length by omega)
  generalize tokens[start] = first at here
  generalize tokens[stop - 1] = last at there
  rw [leaves_mapSpan, covers.parts ordered simple, span_mapSpan, span,
    Span.locate_eq less here there]
  have split : tokens.take start ++ ((tokens.drop start).take (stop - start) ++
      (tokens.drop start).drop (stop - start)) = tokens := by
    rw [List.take_append_drop, List.take_append_drop]
  have atFirst : ((tokens.drop start).take (stop - start)).head? = some first := by
    rw [take_drop_succ here less, List.head?_cons]
  have atLast : ((tokens.drop start).take (stop - start)).getLast? = some last := by
    rw [List.getLast?_take, if_neg (by omega), List.getElem?_drop,
      show start + (stop - start - 1) = stop - 1 by omega, there, Option.some_or]
  rw [← split] at ordered
  have inside := ordered.filter_isWithin atFirst atLast
  rw [split] at inside
  exact inside.symm

end Node.IsPlaced

end Located

/-- The items of a stream stand for all of its tokens. -/
theorem Reading.ofTokens_covering (tokens : List Token) :
    ∃ stop, tokens.length ≤ stop ∧
      Covering tokens 0 ((ofTokens tokens).items.map Node.toChild) stop := by
  obtain ⟨last, items, ended, _⟩ := ofTokens_reads tokens
  have begins : (GrammarState.ofTokens tokens).At tokens 0 := rfl
  obtain ⟨stop, atStop, covering⟩ := items.reads.covers begins
  refine ⟨stop, ?_, covering⟩
  have rest := atStop.symm.trans ended
  have none := congrArg List.length rest
  rwa [Word.length_ofTokensFrom, List.length_drop, List.length_nil, Nat.sub_eq_zero_iff_le] at none

theorem parse_spells (source : String) :
    ∀ node ∈ (parse source).tree.root.descendants.tail, node.Spells (tokenize source).1 := by
  obtain ⟨_, _, covering⟩ := Reading.ofTokens_covering (tokenize source).1
  intro node member
  rw [parse_root, Node.descendants_mk, List.tail_cons, Child.nodes_toChild,
    Node.preorder_mapSpan, List.mem_map] at member
  obtain ⟨inner, below, rfl⟩ := member
  have placed := covering.placed inner (by rwa [Child.nodes_toChild])
  exact ⟨placed.extent, placed.parts_leaves (tokenize_ordered source) (tokenize_simple source)⟩

/-- No token is lost or doubled: every node below the root spells the tokens inside its span,
and the root spells all tokens of the source. -/
theorem parse_lossless (source : String) :
    (∀ node ∈ (parse source).tree.root.descendants.tail, node.Spells (tokenize source).1) ∧
      (parse source).tree.root.leaves.flatMap Token.parts = (tokenize source).1 := by
  obtain ⟨stop, reached, covering⟩ := Reading.ofTokens_covering (tokenize source).1
  have parts := covering.leaves.parts (tokenize_ordered source) (tokenize_simple source)
  rw [List.drop_zero, Nat.sub_zero, List.take_of_length_le reached] at parts
  refine ⟨parse_spells source, ?_⟩
  rw [parse_root, Node.leaves, ← Node.mapSpanOfChildren_toChild, Node.leaves_mapSpanOfChildren]
  exact parts

end OpenCLTree

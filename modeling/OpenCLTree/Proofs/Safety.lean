import OpenCLTree.Proofs.Lexical.TokenBuffer
import OpenCLTree.Proofs.LineIndex
import OpenCLTree.Proofs.Lossless

namespace OpenCLTree

section Placed

variable {text : List Char} {tokens leaves : List Token} {start stop : Nat}

/-- Wherever a span of tokens is placed, its bytes can be cut out of the text. -/
theorem Span.placeIn_usable (ordered : Token.Ordered (byteLength text) 0 tokens)
    (cut : ∀ token ∈ tokens, token.IsCutFrom text) (span : Span) :
    (span.placeIn tokens (byteLength text)).IsUsable text := by
  have atEnd : Span.IsUsable text ⟨byteLength text, byteLength text⟩ :=
    ⟨Nat.le_refl _, Nat.le_refl _, .size text, .size text⟩
  unfold Span.placeIn Span.locate
  split
  · rename_i nonempty
    split
    · rename_i first last atFirst atLast
      simp only [List.getElem?_toArray, List.getElem?_map, Option.map_eq_some_iff] at atFirst atLast
      obtain ⟨head, here, rfl⟩ := atFirst
      obtain ⟨foot, there, rfl⟩ := atLast
      have headUsable := Span.isUsable_of_slice? (cut head (List.mem_of_getElem? here))
      have footUsable := Span.isUsable_of_slice? (cut foot (List.mem_of_getElem? there))
      refine ⟨?_, footUsable.within, headUsable.start, footUsable.stop⟩
      obtain same | less := Nat.eq_or_lt_of_le (Nat.le_pred_of_lt nonempty)
      · rw [Nat.pred_eq_sub_one] at same
        rw [same, there] at here
        cases here
        exact footUsable.forwards
      · obtain ⟨inside, rfl⟩ := List.getElem?_eq_some_iff.mp here
        obtain ⟨inside', rfl⟩ := List.getElem?_eq_some_iff.mp there
        have apart := List.pairwise_iff_getElem.mp ordered.pairwise _ _ inside inside' less
        exact headUsable.forwards.trans (apart.trans footUsable.forwards)
    · exact atEnd
  · exact atEnd

/-- A leaf has the text that its bytes spell, also where it is an accessor of two tokens. -/
theorem Covers.cut (cut : ∀ token ∈ tokens, token.IsCutFrom text)
    (covers : Covers tokens start leaves stop) :
    ∀ leaf ∈ leaves, (leaf.mapSpan (Span.placeIn tokens (byteLength text))).IsCutFrom text := by
  induction covers with
  | nothing => exact List.forall_mem_nil _
  | @token start stop token rest here after ih =>
    refine List.forall_mem_cons.mpr ⟨?_, ih⟩
    rw [Token.IsCutFrom, Token.mapSpan, Span.locate_eq (Nat.lt_succ_self start) here here]
    exact cut token (List.mem_of_getElem? here)
  | @accessor start stop dot name accessor rest here next joined after ih =>
    refine List.forall_mem_cons.mpr ⟨?_, ih⟩
    have span := Word.span_accessorOf? joined
    rw [Token.IsCutFrom, Token.mapSpan, span,
      Span.locate_eq (Nat.lt_add_of_pos_right Nat.two_pos) here next]
    unfold Word.accessorOf? at joined
    split at joined
    · rename_i facts
      obtain rfl := Option.some.inj joined
      have before : slice? text ⟨dot.span.start, dot.span.stop⟩ = some dot.text.toList :=
        cut dot (List.mem_of_getElem? here)
      have after : slice? text ⟨dot.span.stop, name.span.stop⟩ = some name.text.toList := by
        rw [← facts.2.2.1]
        exact cut name (List.mem_of_getElem? next)
      rw [String.toList_append]
      exact slice?_join before after
    · cases joined

end Placed

variable (source : String)

theorem parse_placeIn_usable (span : Span) :
    (span.placeIn (tokenize source).1 (byteLength source.toList)).IsUsable source.toList :=
  span.placeIn_usable (tokenize_ordered source) (tokenize_cut source)

theorem parse_nodes_usable :
    ∀ node ∈ (parse source).tree.root.descendants, node.span.IsUsable source.toList := by
  intro node member
  rw [parse_root, Node.descendants_mk, Child.nodes_toChild, Node.preorder_mapSpan] at member
  obtain rfl | below := List.mem_cons.mp member
  · exact ⟨Nat.zero_le _, Nat.le_refl _, .zero _, .size _⟩
  · obtain ⟨inner, _, rfl⟩ := List.mem_map.mp below
    rw [Node.span_mapSpan]
    exact parse_placeIn_usable source inner.span

theorem parse_leaves_cut : ∀ leaf ∈ (parse source).tree.root.leaves, leaf.IsCutFrom source.toList := by
  obtain ⟨last, items, _, _⟩ := Reading.ofTokens_reads (tokenize source).1
  have begins : (GrammarState.ofTokens (tokenize source).1).At (tokenize source).1 0 := rfl
  obtain ⟨stop, _, covering⟩ := items.reads.covers begins
  have cut := covering.leaves.cut (tokenize_cut source)
  rw [parse_root, Node.leaves, ← Node.mapSpanOfChildren_toChild, Node.leaves_mapSpanOfChildren]
  intro leaf member
  obtain ⟨inner, below, rfl⟩ := List.mem_map.mp member
  exact cut inner below

theorem Diagnostic.labels_usable {source : List Char} {error : ParseError} {position : Position}
    (usable : error.span.IsUsable source)
    (first : ∀ category first span, error = .duplicateQualifier category first span →
      first.IsUsable source) :
    ∀ label ∈ (Diagnostic.mk error position).labels, label.span.IsUsable source := by
  cases error with
  | duplicateQualifier category earlier span =>
    exact List.forall_mem_cons.mpr ⟨usable, List.forall_mem_singleton.mpr (first _ _ _ rfl)⟩
  | _ => exact List.forall_mem_singleton.mpr usable

theorem parse_diagnostics_usable :
    ∀ diagnostic ∈ (parse source).diagnostics, diagnostic.span.IsUsable source.toList ∧
      ∀ label ∈ diagnostic.labels, label.span.IsUsable source.toList := by
  intro diagnostic member
  rw [parse_diagnostics, Diagnostic.ofErrors] at member
  obtain ⟨error, found, rfl⟩ := List.mem_map.mp (List.mem_mergeSort.mp member)
  rcases List.mem_append.mp (List.mem_filter.mp found).1 with lexical | grammatical
  · obtain ⟨lexError, inSource, rfl⟩ := List.mem_map.mp lexical
    have usable := tokenize_errors_usable source lexError inSource
    exact ⟨usable, Diagnostic.labels_usable usable nofun⟩
  · obtain ⟨inner, reported, rfl⟩ := List.mem_map.mp grammatical
    have kind := (Reading.errors_grammatical _ inner reported).2
    have usable := parse_placeIn_usable source inner.span
    rw [← ParseError.span_mapSpan (Span.placeIn _ _) kind] at usable
    refine ⟨usable, Diagnostic.labels_usable usable fun category first span same => ?_⟩
    cases inner <;> cases same
    exact parse_placeIn_usable source _

/-- No text is cut out of a source beyond its ends or inside a character: not while it is read
token by token, in any order of lookahead, going back and changing the mode; not around a spoiled
escape; and not where the tree and the diagnostics say that something lies. -/
theorem parse_safe :
    (∀ steps, ∃ session, (BufferSession.ofText source.toList).run? steps = some session ∧
      ∀ buffered ∈ session.buffer.tokens, buffered.token.IsCutFrom source.toList) ∧
    (∀ literal offset sequence, findInvalidEscape literal = some (offset, sequence) →
      slice? literal ⟨offset, offset + byteLength sequence⟩ = some sequence) ∧
    (∀ offset, ∃ start, (LineIndex.ofText source.toList).lineStart? offset = some start ∧
      start ≤ offset ∧ IsBoundary source.toList start) ∧
    (∀ node ∈ (parse source).tree.root.descendants, node.span.IsUsable source.toList) ∧
    (∀ leaf ∈ (parse source).tree.root.leaves, leaf.span.IsUsable source.toList ∧
      leaf.IsCutFrom source.toList) ∧
    (∀ diagnostic ∈ (parse source).diagnostics, diagnostic.span.IsUsable source.toList ∧
      ∀ label ∈ diagnostic.labels, label.span.IsUsable source.toList) := by
  refine ⟨fun steps => ?_, fun _ _ _ => findInvalidEscape_slice, fun offset => ?_,
    parse_nodes_usable source, fun leaf member => ?_, parse_diagnostics_usable source⟩
  · obtain ⟨session, run, sound⟩ := (BufferSession.ofText_sound source.toList).run? steps
    exact ⟨session, run, sound.buffer.tokens⟩
  · exact LineIndex.lineStart?_eq source.toList offset
  · have cut := parse_leaves_cut source leaf member
    exact ⟨Span.isUsable_of_slice? cut, cut⟩

end OpenCLTree

import OpenCLTree.Proofs.Echo.Items
import OpenCLTree.Proofs.Echo.Stream
import OpenCLTree.Proofs.Lossless

namespace OpenCLTree

variable {tokens : List Token}

/-- However much room there is for calls inside each other, if it is enough for all tokens, then
reading ends, and always with the same items. -/
theorem Reading.sourceItems_ofDepth {depth : Nat} (enough : tokens.length ≤ depth) :
    ∃ last, sourceItems (Grammar.ofDepth depth) (.ofTokens tokens) =
      .done (ofTokens tokens).items last := by
  have fits := GrammarState.ofTokens_fits tokens
  have roomy : (GrammarState.ofTokens tokens).Fits (depth + 1) :=
    ⟨fits.lawful, Nat.lt_of_lt_of_le fits.fewer (Nat.succ_le_succ enough)⟩
  obtain ⟨items, last, run, takes⟩ := Rule.takes_of_serves (Grammar.ofDepth_serves depth) roomy
  obtain ⟨_, plain, _⟩ := ofTokens_takes tokens
  let e := Echo.longer [] false (by simp)
  have serves := Grammar.ofDepth_serves tokens.length
  have echoes := Grammar.ofDepth_echoes e enough
  have sound : e.Sound (.ofTokens tokens) := .ofStream rfl rfl rfl (fun _ => rfl) fun _ => id
  have agrees : e.Agrees (.ofTokens tokens) (.ofTokens tokens) :=
    Echo.agrees_front (fun _ => rfl) rfl rfl (List.append_nil _).symm
  obtain ⟨more, middle, same, agrees', rest⟩ :=
    plain.echoes serves fits sound echoes (.inl rfl) agrees takes
  have ended : middle.cursor.peek? 0 = none := by
    rw [agrees'.peek? (sound.trail (plain.trails serves fits sound echoes)) (.inl rfl),
      plain.at_end, Option.map_none]
  obtain ⟨rfl, _⟩ := rest.eq_nil ended
  rw [List.append_nil] at same
  exact ⟨last, by rw [run, same.trans (items_mapTokens tokens)]⟩

/-- Whether a node has a leaf, and a token of a stream lies inside it. -/
structure Node.Consumes (tokens : List Token) (node : Node) : Prop where
  leaves : node.leaves ≠ []
  token : ∃ token ∈ tokens, token.span.isWithin node.span = true

theorem Token.parts_ne_nil (leaf : Token) : leaf.parts ≠ [] := by
  unfold parts
  split <;> exact List.cons_ne_nil _ _

theorem Node.Spells.consumes {node : Node} (spells : node.Spells tokens) : node.Consumes tokens := by
  obtain ⟨first, _, atFirst, _⟩ := spells.extent
  have leaf := List.mem_of_mem_head? atFirst
  obtain ⟨part, rest, parts⟩ := List.exists_cons_of_ne_nil first.parts_ne_nil
  have among : part ∈ node.leaves.flatMap Token.parts :=
    List.mem_flatMap.mpr ⟨first, leaf, parts ▸ List.mem_cons_self⟩
  rw [spells.leaves, List.mem_filter] at among
  exact ⟨List.ne_nil_of_mem leaf, part, among.1, among.2⟩

/-- Reading always ends and never stands still: no bound on the depth of the calls is reached,
every item at the top level or in a block takes a token at least, and so there are at most as many
items as tokens. -/
theorem parse_progresses (source : String) :
    (∀ depth, (tokenize source).1.length ≤ depth →
      ∃ last, sourceItems (Grammar.ofDepth depth) (.ofTokens (tokenize source).1) =
        .done (Reading.ofTokens (tokenize source).1).items last) ∧
      (∀ item ∈ (parse source).tree.items, item.Consumes (tokenize source).1) ∧
      (∀ block ∈ (parse source).tree.root.descendants,
        block.kind = .compoundStatement ∨ block.kind = .caseStatement →
          ∀ item ∈ block.childNodes, item.Consumes (tokenize source).1) ∧
      (∀ node ∈ (parse source).tree.root.descendants, node.isError = true → node.leaves ≠ []) ∧
      (parse source).tree.root.children.length ≤ (tokenize source).1.length := by
  have consumes (node : Node) (member : node ∈ (parse source).tree.root.descendants.tail) :
      node.Consumes (tokenize source).1 := (parse_spells source node member).consumes
  have whole : (parse source).tree.root ∈ (parse source).tree.root.descendants :=
    Node.mem_preorder_self (List.mem_singleton_self _)
  refine ⟨fun _ enough => Reading.sourceItems_ofDepth enough, fun item member => ?_,
    fun block member _ item below => ?_, fun node member isError => ?_, ?_⟩
  · exact consumes item (Node.mem_descendants_tail whole member)
  · exact consumes item (Node.mem_descendants_tail member below)
  · rw [parse_root, Node.descendants_mk] at member
    rcases List.mem_cons.mp member with rfl | below
    · cases isError
    · refine (consumes node ?_).leaves
      rwa [parse_root, Node.descendants_mk]
  · obtain ⟨last, items, _, _⟩ := Reading.ofTokens_reads (tokenize source).1
    have leaves := items.reads.length_le
    have taken := items.reads.rest.2
    have words : (GrammarState.ofTokens (tokenize source).1).remaining = (tokenize source).1.length :=
      Word.length_ofTokensFrom 0 _
    rw [List.length_map] at leaves
    rw [parse_root, Node.children, List.length_map, List.length_map]
    omega

end OpenCLTree

import OpenCLTree.Proofs.Classification

namespace OpenCLTree

theorem rightBrace_of_braceChange {token : Token} (closes : braceChange token < 0) :
    token.kind = .punct .rightBrace ∧ braceChange token = -1 := by
  unfold braceChange at closes ⊢
  split at closes
  · omega
  · rename_i isBrace
    exact ⟨isBrace, rfl⟩
  · omega

theorem braceDepth_mapSpan (place : Span → Span) (leaves : List Token) :
    braceDepth (leaves.map (·.mapSpan place)) = braceDepth leaves := by
  induction leaves with
  | nil => rfl
  | cons token rest ih =>
    rw [List.map_cons, braceDepth, braceDepth, ih]
    rfl

/-- Where more braces are closed than are open there is the first that is one too many. -/
theorem exists_closing {depth : Int} (leaves : List Token) (within : 0 ≤ depth)
    (below : depth + braceDepth leaves < 0) : ∃ inner closer rest,
      leaves = inner ++ closer :: rest ∧ closer.kind = .punct .rightBrace ∧
        depth + braceDepth inner = 0 := by
  induction leaves generalizing depth with
  | nil =>
    rw [braceDepth] at below
    omega
  | cons token rest ih =>
    rw [braceDepth, ← Int.add_assoc] at below
    by_cases closes : depth + braceChange token < 0
    · obtain ⟨isBrace, change⟩ := rightBrace_of_braceChange (by omega : braceChange token < 0)
      exact ⟨[], token, rest, rfl, isBrace, by rw [braceDepth]; omega⟩
    · obtain ⟨inner, closer, others, rfl, isBrace, closed⟩ := ih (by omega) below
      exact ⟨token :: inner, closer, others, rfl, isBrace, by rw [braceDepth]; omega⟩

/-- Whether an error node leaves no brace open: it closes as many as it opens, and if it closes none
that it has not opened, then every one that it opens is closed by a later one. -/
structure Node.LeavesNoneOpen (node : Node) : Prop where
  depth : braceDepth node.leaves ≤ 0
  closed : (∀ front, front <+: node.leaves → 0 ≤ braceDepth front) →
    ∀ front opener back, node.leaves = front ++ opener :: back → opener.kind = .punct .leftBrace →
      ∃ inner closer rest, back = inner ++ closer :: rest ∧ closer.kind = .punct .rightBrace ∧
        braceDepth inner = 0

theorem Node.leavesNoneOpen {node : Node} (depth : braceDepth node.leaves ≤ 0) : node.LeavesNoneOpen where
  depth := depth
  closed noStray front opener back split isBrace := by
    have atFront := noStray front ⟨opener :: back, split.symm⟩
    have opens : braceChange opener = 1 := by rw [braceChange, isBrace]
    rw [split, braceDepth_append, braceDepth, opens] at depth
    obtain ⟨inner, closer, rest, same, isCloser, closed⟩ :=
      exists_closing back (Int.le_refl 0) (by omega)
    exact ⟨inner, closer, rest, same, isCloser, by omega⟩

/-- The first token behind a place is the next one of the stream. -/
theorem Token.Ordered.find?_behind {size start place : Nat} {tokens : List Token} {last : Token}
    (ordered : Ordered size start tokens) (atLast : tokens[place]? = some last) :
    tokens.find? (fun token => last.span.stop ≤ token.span.start) = tokens[place + 1]? := by
  induction ordered generalizing place with
  | nil => cases atLast
  | @cons start token rest _ nonempty _ _ after ih =>
    cases place with
    | zero =>
      cases atLast
      rw [List.find?_cons_of_neg (by simpa using nonempty), List.getElem?_cons_succ]
      cases after with
      | nil => rfl
      | cons behind => rw [List.find?_cons_of_pos (by simpa using behind), List.getElem?_cons_zero]
    | succ place =>
      rw [List.getElem?_cons_succ] at atLast ⊢
      have behind := after.start_le last (List.mem_of_getElem? atLast)
      have wide := (after.nonempty last (List.mem_of_getElem? atLast)).1
      rw [List.find?_cons_of_neg (by simp only [decide_eq_true_eq]; omega), ih atLast]

/-- Whether parsing goes on outside of braces behind each error node, unless what comes next is a
preprocessor line or nothing. -/
def Tree.RecoversOutside (tree : Tree) (tokens : List Token) : Prop :=
  ∀ node ∈ tree.root.descendants, node.kind = .error →
    node.LeavesNoneOpen ∨
      ∀ next, tokens.find? (fun token => node.span.stop ≤ token.span.start) = some next →
        next.kind = .pragma ∨ next.kind = .directive

theorem parse_recoversOutside (source : String) :
    (parse source).tree.RecoversOutside (tokenize source).1 := by
  intro node member isError
  rcases Node.mem_descendants_iff.mp member with rfl | below
  · rw [parse_root] at isError
    cases isError
  obtain ⟨inner, shaped, placed, rfl⟩ := parse_shaped source node below
  rw [Node.kind_mapSpan] at isError
  obtain ⟨start, stop, less, span, covers⟩ := placed
  have within := covers.within less
  have here := List.getElem?_eq_getElem (show start < (tokenize source).1.length by omega)
  have there := List.getElem?_eq_getElem (show stop - 1 < (tokenize source).1.length by omega)
  have atLast := List.getLast?_eq_some_getLast (covers.leaves_ne_nil less)
  have ends : (inner.leaves.getLast (covers.leaves_ne_nil less)).span.stop = stop :=
    covers.tiles.getLast (by rw [List.getLast?_map, atLast, Option.map_some])
  have behind := (tokenize_ordered source).find?_behind there
  rw [Nat.sub_add_cancel (by omega : 1 ≤ stop)] at behind
  refine (shaped.braces isError _ atLast).imp (fun depth => Node.leavesNoneOpen ?_) fun marker next found => ?_
  · rwa [Node.leaves_mapSpan, braceDepth_mapSpan]
  · rw [Node.span_mapSpan, span, Span.locate_eq less here there, behind] at found
    exact marker next (by rw [ends, found])

end OpenCLTree

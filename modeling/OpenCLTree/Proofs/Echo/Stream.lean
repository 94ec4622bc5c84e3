import OpenCLTree.Proofs.Echo.Setting
import OpenCLTree.Proofs.Lexical.Joined
import OpenCLTree.Proofs.Lexical.Stream

namespace OpenCLTree

namespace Word

theorem accessorOf?_shift (distance place : Nat) (dot name : Token) :
    accessorOf? (place + distance) dot name =
      (accessorOf? place dot name).map (·.shift distance) := by
  unfold accessorOf?
  split
  · rw [Option.map_some, Token.shift, Span.shift, Nat.add_right_comm]
  · rfl

/-- Words that stand further back in a stream are the same but for their numbers. -/
theorem ofTokensFrom_shift (distance place : Nat) (tokens : List Token) :
    ofTokensFrom (place + distance) tokens = (ofTokensFrom place tokens).map fun word =>
      ⟨word.token.shift distance, word.accessor.map (·.shift distance)⟩ := by
  induction tokens generalizing place with
  | nil => rfl
  | cons token rest ih =>
    have accessor : rest.head?.bind (accessorOf? (place + distance) token) =
        (rest.head?.bind (accessorOf? place token)).map (·.shift distance) := by
      cases rest.head? with
      | none => rfl
      | some name => exact accessorOf?_shift distance place token name
    rw [ofTokensFrom, ofTokensFrom, List.map_cons, ← ih, accessor, Nat.add_right_comm]
    simp only [Token.shift, Span.shift, Nat.add_right_comm]

/-- A stream made of two goes on as the second does, unless a name of the second stands right
after a dot that ends the first. -/
theorem ofTokensFrom_append {front back : List Token} (place : Nat)
    (apart : ∀ dot ∈ front, ∀ name ∈ back, name.span.start ≠ dot.span.stop) :
    ofTokensFrom place (front ++ back) =
      ofTokensFrom place front ++ ofTokensFrom (place + front.length) back := by
  induction front generalizing place with
  | nil => rfl
  | cons token rest ih =>
    have later := ih (place + 1) fun dot member => apart dot (List.mem_cons_of_mem _ member)
    have accessor : (rest ++ back).head?.bind (accessorOf? place token) =
        rest.head?.bind (accessorOf? place token) := by
      cases rest with
      | cons => rfl
      | nil =>
        cases back with
        | nil => rfl
        | cons name back =>
          have far := apart token List.mem_cons_self name List.mem_cons_self
          exact if_neg fun joined => far joined.2.2.1
    rw [List.cons_append, ofTokensFrom, later, accessor, ofTokensFrom, List.cons_append,
      List.length_cons, Nat.add_assoc, Nat.add_comm 1]

theorem ofTokensFrom_suffix {place : Nat} {tokens : List Token} {words : List Word}
    (suffix : words <:+ ofTokensFrom place tokens) :
    ∃ place' tokens', tokens' <:+ tokens ∧ words = ofTokensFrom place' tokens' := by
  induction tokens generalizing place with
  | nil => exact ⟨place, [], List.suffix_rfl, List.suffix_nil.mp suffix⟩
  | cons token rest ih =>
    rcases List.suffix_cons_iff.mp suffix with whole | later
    · exact ⟨place, token :: rest, List.suffix_rfl, whole⟩
    · obtain ⟨place', tokens', inside, same⟩ := ih later
      exact ⟨place', tokens', inside.trans (List.suffix_cons _ _), same⟩

theorem joined_ofTokensFrom (place : Nat) (tokens : List Token) : Joined (ofTokensFrom place tokens) := by
  intro word rest suffix accessor here
  obtain ⟨place', tokens', _, same⟩ := ofTokensFrom_suffix suffix
  cases tokens' with
  | nil => cases same
  | cons dot others =>
    obtain ⟨rfl, rfl⟩ := List.cons.inj same
    cases others with
    | nil => cases here
    | cons name others =>
      change accessor ∈ accessorOf? place' dot name at here
      unfold accessorOf? at here
      split at here
      · rename_i facts
        cases here
        exact ⟨facts.1, rfl, _, _, rfl, facts.2.1⟩
      · cases here

/-- A word is a token of the stream but for its place, which no earlier word has. -/
theorem mem_ofTokensFrom {place : Nat} {tokens : List Token} {word : Word}
    (member : word ∈ ofTokensFrom place tokens) :
    place ≤ word.token.span.start ∧ (∀ accessor ∈ word.accessor, place ≤ accessor.span.start) ∧
      ∃ token ∈ tokens, word.token.kind = token.kind ∧ word.token.text = token.text ∧
        word.token.newlineBefore = token.newlineBefore := by
  induction tokens generalizing place with
  | nil => cases member
  | cons token rest ih =>
    rcases List.mem_cons.mp member with rfl | later
    · refine ⟨Nat.le_refl _, fun accessor some => ?_, token, List.mem_cons_self, rfl, rfl, rfl⟩
      obtain ⟨name, _, joined⟩ := Option.bind_eq_some_iff.mp some
      unfold accessorOf? at joined
      split at joined <;> cases joined
      exact Nat.le_refl _
    · obtain ⟨start, joined, found, inside, same⟩ := ih later
      exact ⟨Nat.le_of_succ_le start, fun accessor some => Nat.le_of_succ_le (joined accessor some),
        found, List.mem_cons_of_mem _ inside, same⟩

theorem kinds_ofTokensFrom (place : Nat) (tokens : List Token) :
    (ofTokensFrom place tokens).map (·.token.kind) = tokens.map (·.kind) := by
  induction tokens generalizing place with
  | nil => rfl
  | cons token rest ih => exact congrArg (token.kind :: ·) (ih (place + 1))

/-- The words of a stream do not depend on where it stands in the text. -/
theorem ofTokensFrom_moved (bytes place : Nat) (tokens : List Token) :
    ofTokensFrom place (tokens.map (·.shift bytes)) = ofTokensFrom place tokens := by
  induction tokens generalizing place with
  | nil => rfl
  | cons token rest ih =>
    have accessor : (rest.map (·.shift bytes)).head?.bind (accessorOf? place (token.shift bytes)) =
        rest.head?.bind (accessorOf? place token) := by
      cases rest with
      | nil => rfl
      | cons name others =>
        simp [accessorOf?, Token.shift, Span.shift]
    rw [List.map_cons, ofTokensFrom, ofTokensFrom, ih, accessor]
    rfl

end Word

/-- The token at some place is told whether a line ends in front of it. -/
def Token.lineAt (place : Nat) (newline : Bool) (leaf : Token) : Token :=
  if leaf.span.start = place then { leaf with newlineBefore := newline } else leaf

theorem Token.lineAt_of_lt {place : Nat} {newline : Bool} {leaf : Token}
    (less : place < leaf.span.start) : leaf.lineAt place newline = leaf :=
  if_neg (Nat.ne_of_gt less)

/-- A stream whose first token is told about the line goes on as before. -/
theorem Word.ofTokensFrom_follow (distance : Nat) (newline : Bool) (tokens : List Token) :
    ofTokensFrom distance (Token.follow newline tokens) = (ofTokens tokens).map fun word =>
      ⟨(word.token.shift distance).lineAt distance newline,
        word.accessor.map fun leaf => (leaf.shift distance).lineAt distance newline⟩ := by
  cases tokens with
  | nil => rfl
  | cons token rest =>
    have first : rest.head?.bind (accessorOf? distance { token with newlineBefore := newline }) =
        (rest.head?.bind (accessorOf? 0 token)).map fun leaf =>
          (leaf.shift distance).lineAt distance newline := by
      cases rest with
      | nil => rfl
      | cons name others =>
        simp only [List.head?_cons, Option.bind_some, accessorOf?]
        split
        · simp [Token.shift, Span.shift, Token.lineAt, Nat.add_comm 2]
        · rfl
    have later : ofTokensFrom (distance + 1) rest = (ofTokensFrom 1 rest).map fun word =>
        ⟨(word.token.shift distance).lineAt distance newline,
          word.accessor.map fun leaf => (leaf.shift distance).lineAt distance newline⟩ := by
      have shifted := ofTokensFrom_shift distance 1 rest
      rw [Nat.add_comm 1] at shifted
      rw [shifted]
      refine List.map_congr_left fun word member => ?_
      obtain ⟨start, joined, _⟩ := mem_ofTokensFrom member
      rw [Token.lineAt_of_lt (Nat.lt_add_of_pos_left start)]
      refine congrArg (Word.mk _) (Option.map_congr fun leaf some => ?_)
      exact (Token.lineAt_of_lt (Nat.lt_add_of_pos_left (joined leaf some))).symm
    rw [ofTokens, Token.follow, ofTokensFrom, ofTokensFrom, first, List.map_cons, Nat.zero_add, later]
    simp [Token.shift, Span.shift, Token.lineAt, Nat.add_comm 1]

/-- Any state in front of a stream is sound when the second run meets it as the first does. -/
theorem Echo.Sound.ofStream {e : Echo} {state : GrammarState} {place : Nat} {tokens : List Token}
    (mode : state.cursor.mode = .normal)
    (rest : state.cursor.rest = Word.ofTokensFrom place tokens) (folded : e.flat = false)
    (lines : ∀ leaf, (e.token leaf).newlineBefore = leaf.newlineBefore)
    (known : ∀ name, ¬ e.foreign name) : e.Sound state where
  mode := mode
  joined := rest ▸ Word.joined_ofTokensFrom place tokens
  names _ _ _ := known _
  flat isFlat := absurd (folded.symm.trans isFlat) Bool.false_ne_true
  steadyTail _ _ := lines _
  steady _ _ _ := lines _

end OpenCLTree

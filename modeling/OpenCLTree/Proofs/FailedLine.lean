import OpenCLTree.Proofs.Appending
import OpenCLTree.Proofs.Lexical.Kinds
import OpenCLTree.Proofs.Tree.MapLeaves

namespace OpenCLTree

/-- Tokens that end with their only semicolon, without braces and without a line of the
preprocessor. -/
structure Token.IsPlainLine (tokens : List Token) : Prop where
  plain : ∀ token ∈ tokens, token.kind ≠ .punct .leftBrace ∧ token.kind ≠ .punct .rightBrace ∧
    token.kind ≠ .pragma ∧ token.kind ≠ .directive
  ends : ∃ front semicolon, tokens = front ++ [semicolon] ∧ semicolon.kind = .punct .semicolon ∧
    ∀ token ∈ front, token.kind ≠ .punct .semicolon

theorem TokenKind.turn_eq_marks {kind : TokenKind} : kind.turn = .marks ↔ kind = .pragma ∨ kind = .directive := by
  unfold turn
  split <;> simp_all

/-- The leaves that cover some tokens are these tokens but for their places, and accessors made of
two of them. -/
theorem Covers.mem {tokens leaves : List Token} {start stop : Nat} {leaf : Token}
    (covers : Covers tokens start leaves stop) (member : leaf ∈ leaves) :
    (∃ token ∈ tokens, leaf.kind = token.kind ∧ leaf.text = token.text) ∨
      leaf.kind = .swizzle ∧ ∃ dot ∈ tokens, dot.kind = .punct .dot ∧ ∃ rest, leaf.text = dot.text ++ rest := by
  induction covers with
  | nothing => cases member
  | token here _ ih =>
    rcases List.mem_cons.mp member with rfl | later
    · exact .inl ⟨_, List.mem_of_getElem? here, rfl, rfl⟩
    · exact ih later
  | accessor here _ joined _ ih =>
    rcases List.mem_cons.mp member with rfl | later
    · unfold Word.accessorOf? at joined
      split at joined
      · rename_i facts
        cases joined
        exact .inr ⟨rfl, _, List.mem_of_getElem? here, facts.1, _, rfl⟩
      · cases joined
    · exact ih later

/-- Leaves that end before some tokens cover none of them. -/
theorem Covers.front {front back leaves : List Token} {start stop : Nat}
    (covers : Covers (front ++ back) start leaves stop) (within : stop ≤ front.length) :
    Covers front start leaves stop := by
  induction covers with
  | nothing place => exact .nothing place
  | token here after ih =>
    have reached := after.tiles.start_le_stop
    rw [List.getElem?_append_left (by omega)] at here
    exact .token here (ih within)
  | accessor here next joined after ih =>
    have reached := after.tiles.start_le_stop
    rw [List.getElem?_append_left (by omega)] at here next
    exact .accessor here next joined (ih within)

namespace Echo

/-- A run that meets a line first, and then more. -/
def failing (after : List Word) : Echo :=
  longer after true fun folded => absurd folded.symm Bool.false_ne_true

/-- Nothing that follows is nothing that stands on the same line. -/
theorem nothing_follows : ∀ word ∈ ([] : List Word).head?, word.token.newlineBefore = true :=
  fun _ none => absurd none (Option.not_mem_none _)

/-- A run that meets the tokens of another one after others, with some names in its scopes. The
first token may be told something else about the line. -/
def resumed (before : List Token) (distance : Nat) (newline : Bool) (reports : List ParseError)
    (foreign : String → Prop) : Echo where
  token leaf := (leaf.shift distance).lineAt distance newline
  place := (·.shift distance)
  kind leaf := by
    unfold Token.lineAt
    split <;> rfl
  text leaf := by
    unfold Token.lineAt
    split <;> rfl
  span leaf := by
    unfold Token.lineAt
    split <;> rfl
  floor := distance
  above leaf := by
    unfold Token.lineAt
    split <;> exact Nat.le_add_left _ _
  before := before
  after := []
  reports := reports
  foreign := foreign
  flat := false
  newline _ := nothing_follows

variable {front : List Token} {after : List Word} {state : GrammarState}

theorem failing_sound (line : Token.IsPlainLine front) : (failing after).Sound (.ofTokens front) where
  mode := rfl
  joined := Word.joined_ofTokensFrom 0 front
  names _ _ _ := id
  flat _ word member := by
    obtain ⟨_, _, token, inside, kind, _⟩ := Word.mem_ofTokensFrom member
    obtain ⟨noOpening, _, noPragma, noDirective⟩ := line.plain token inside
    rw [kind]
    exact ⟨noOpening, fun marks => (TokenKind.turn_eq_marks.mp marks).elim noPragma noDirective⟩
  steadyTail _ _ := rfl
  steady _ _ _ := rfl

theorem failing_guards (line : Token.IsPlainLine front) :
    (failing after).Guards (some 0) 0 (Word.ofTokens front) := by
  obtain ⟨init, semicolon, whole, kind, _⟩ := line.ends
  refine .inr ⟨0, rfl, Word.closes_of_ends (fun word member => ?_) ?_⟩
  · have sound : (failing []).Sound (.ofTokens front) := failing_sound line
    exact (sound.flat rfl word member).2
  · have kinds := Word.kinds_ofTokensFrom 0 front
    have member : TokenKind.punct .semicolon ∈ front.map (·.kind) := by
      rw [whole, ← kind]
      simp
    rw [← kinds] at member
    obtain ⟨word, inside, same⟩ := List.mem_map.mp member
    exact ⟨word, inside, by rw [same]; rfl⟩

theorem resumed_sound {before : List Token} {distance : Nat} {newline : Bool}
    {reports : List ParseError} {foreign : String → Prop}
    (apart : ∀ token ∈ front, token.kind = .identifier → ¬ foreign token.text) :
    (resumed before distance newline reports foreign).Sound (.ofTokens front) where
  mode := rfl
  joined := Word.joined_ofTokensFrom 0 front
  names word member name := by
    obtain ⟨_, _, token, inside, kind, text, _⟩ := Word.mem_ofTokensFrom member
    rw [text]
    exact apart token inside (kind ▸ name)
  flat folded := absurd folded Bool.false_ne_true
  steadyTail word member := by
    cases front with
    | nil => cases member
    | cons token rest =>
      obtain ⟨start, _⟩ := Word.mem_ofTokensFrom (show word ∈ Word.ofTokensFrom 1 rest from member)
      have still : (word.token.shift distance).lineAt distance newline = word.token.shift distance :=
        Token.lineAt_of_lt (Nat.lt_add_of_pos_left start)
      change ((word.token.shift distance).lineAt distance newline).newlineBefore = _
      rw [still]
      rfl
  steady taken := absurd rfl taken

end Echo

section Line

variable {other last failure : GrammarState} {deeper : Nat} {error : ParseError}

/-- The words of such a line end with their only semicolon as well. -/
theorem Token.IsPlainLine.words (line : Token.IsPlainLine front) :
    ∃ init semicolon, Word.ofTokens front = init ++ [semicolon] ∧
      semicolon.token.kind = .punct .semicolon ∧
      ∀ word ∈ init, word.token.kind ≠ .punct .semicolon := by
  obtain ⟨init, semicolon, whole, kind, others⟩ := line.ends
  have kinds := Word.kinds_ofTokensFrom 0 front
  rw [whole, List.map_append] at kinds
  obtain ⟨words, ending, same, atInit, atEnd⟩ := List.map_eq_append_iff.mp kinds
  obtain ⟨word, rest, rfl, here, atRest⟩ := List.map_eq_cons_iff.mp atEnd
  obtain rfl := List.map_eq_nil_iff.mp atRest
  refine ⟨words, word, by rw [whole]; exact same, here.trans kind, fun word member => ?_⟩
  have inside : word.token.kind ∈ init.map (·.kind) := atInit ▸ List.mem_map_of_mem member
  obtain ⟨token, listed, kind⟩ := List.mem_map.mp inside
  exact kind ▸ others token listed

/-- What follows a line that fails is not looked at before it has failed: it fails at the same
place, before its semicolon. -/
theorem Rule.topLevelItem_failed (line : Token.IsPlainLine front) (enough : front.length ≤ deeper)
    (run : topLevelItem (.ofDepth front.length) (.ofTokens front) = .failed error failure)
    (agrees : (Echo.failing after).Agrees (.ofTokens front) other) :
    failure.cursor.rest ≠ [] ∧
      ∃ error' last, topLevelItem (.ofDepth deeper) other = .failed error' last ∧
        (Echo.failing after).Agrees failure last := by
  have serves := Grammar.ofDepth_serves front.length
  have fits := GrammarState.ofTokens_fits front
  have echoes (after : List Word) : (topLevelItem (.ofDepth front.length)).EchoesAt
      (Echo.failing after) (some 0) none 0 1 (topLevelItem (.ofDepth deeper)) (.ofTokens front) :=
    topLevelItem_echoes (Grammar.ofDepth_echoes _ enough) (.inr rfl) (serves.declares fits)
  have failed (after : List Word) := (echoes after).failed (Echo.failing_sound line) run
  constructor
  · -- The line fails in the same way when something does follow, so a word must be left.
    intro ended
    obtain ⟨guards, _⟩ := (failed [⟨⟨.punct .semicolon, ";", ⟨0, 0⟩, false⟩, none⟩]).2 (Echo.failing_guards line)
    rw [ended] at guards
    rcases guards with none | ⟨_, _, closes⟩
    · cases none
    · cases closes
  · obtain ⟨error', last, run', _, agrees', _⟩ :=
      ((failed after).2 (Echo.failing_guards line)).2 other agrees
    exact ⟨error', last, run', agrees'⟩

/-- Recovery takes the rest of such a line, and no more. -/
theorem Rule.recovering_line (line : Token.IsPlainLine front) (enough : front.length ≤ deeper)
    (lines : ∀ token ∈ front, token.newlineBefore = false)
    (run : topLevelItem (.ofDepth front.length) (.ofTokens front) = .failed error failure)
    (agrees : (Echo.failing after).Agrees (.ofTokens front) other) :
    ∃ tokens : List Token, ∃ last, recovering .topLevel (topLevelItem (.ofDepth deeper)) other =
        .done (.make .error (tokens.map Token.toChild)) last ∧ last.cursor.rest = after := by
  have serves := Grammar.ofDepth_serves front.length
  have fits := GrammarState.ofTokens_fits front
  obtain ⟨left, error', stopped, run', agrees'⟩ := topLevelItem_failed line enough run agrees
  obtain ⟨_, children, reads⟩ := (topLevelItem_reads serves fits).of_failed run
  have taken : Flat (stopped.cursor.takenSince other.cursor) := by
    have begins : (GrammarState.ofTokens front).At front 0 := rfl
    obtain ⟨stop, _, covering⟩ := reads.covers begins
    rw [agrees.takenSince agrees', takenSince_reads reads]
    refine List.forall_mem_map.mpr fun leaf member => ?_
    rcases covering.leaves.mem member with ⟨token, inside, kind, _⟩ | ⟨kind, _⟩
    · obtain ⟨noOpening, noClosing, _⟩ := line.plain token inside
      exact ⟨kind ▸ noOpening, kind ▸ noClosing⟩
    · simp [Echo.failing, kind]
  obtain ⟨init, semicolon, whole, ends, others⟩ := line.words
  have suffix : failure.cursor.rest <:+ Word.ofTokens front := reads.rest.1
  rw [whole] at suffix
  obtain ⟨rest, atEnd, inside⟩ := (List.suffix_concat_iff.mp suffix).resolve_left left
  have passable (word : Word) (member : word ∈ rest ++ [semicolon]) : Passable word.token := by
    have listed : word ∈ Word.ofTokens front := by
      rw [whole]
      exact suffix.subset (atEnd ▸ member)
    obtain ⟨_, _, token, among, kind, _, newline⟩ := Word.mem_ofTokensFrom listed
    obtain ⟨noOpening, noClosing, noPragma, noDirective⟩ := line.plain token among
    exact
      { line := newline.trans (lines token among)
        brace := kind ▸ ⟨noOpening, noClosing⟩
        turn := fun marks => (TokenKind.turn_eq_marks.mp (kind ▸ marks)).elim noPragma noDirective }
  have normal : stopped.cursor.mode = .normal := agrees'.mode.trans reads.mode
  have normal' : (stopped.report error').cursor.mode = .normal := normal
  have words : (stopped.report error').cursor.rest = rest ++ semicolon :: after := by
    have still : (Echo.failing after).word = id := funext fun word => by simp [Echo.word, Echo.failing, Echo.longer]
    change stopped.cursor.rest = _
    rw [agrees'.rest, atEnd, still, List.map_id, List.append_assoc]
    rfl
  have skips : ∃ tokens last,
      skipToSync .topLevel (stopped.cursor.takenSince other.cursor) (stopped.report error') =
        .done tokens last ∧ last.cursor.rest = after :=
    skipToSync_line normal' words taken passable
      (fun word member => others word (inside.subset member)) ends
  obtain ⟨tokens, last, skipped, atLast⟩ := skips
  refine ⟨tokens, last, ?_, atLast⟩
  rw [recovering_failed normal run', bind_done skipped]
  rfl

end Line

theorem Token.follow_map_shift (newline : Bool) (bytes : Nat) (tokens : List Token) :
    follow newline (tokens.map (·.shift bytes)) = (follow newline tokens).map (·.shift bytes) := by
  cases tokens <;> rfl

theorem Token.length_follow (newline : Bool) (tokens : List Token) :
    (follow newline tokens).length = tokens.length := by
  cases tokens <;> rfl

/-- When some items have been read, and the names read in them do not come again, then the rest is
read like a stream of its own. -/
theorem Grammar.Takes.resumed {state last : GrammarState} {children : List Child} {items : List Node}
    {tokens whole : List Token} {deeper place bytes : Nat} {newline : Bool}
    (takes : (ofDepth deeper).Takes state items last) (enough : tokens.length ≤ deeper)
    (reads : ReadsWith True (.ofTokens whole) children state)
    (rest : state.cursor.rest =
      Word.ofTokensFrom place (Token.follow newline (tokens.map (·.shift bytes))))
    (apart : ∀ token ∈ tokens, token.kind = .identifier → ¬ state.HasRead token.text) :
    items = (Reading.ofTokens tokens).items.map
      (·.mapTokens fun leaf => (leaf.shift place).lineAt place newline) := by
  let e := Echo.resumed state.cursor.taken place newline state.reports state.HasRead
  have agrees : e.Agrees (.ofTokens tokens) state :=
    { mode := reads.mode
      taken := rfl
      rest := by
        rw [rest, Token.follow_map_shift, Word.ofTokensFrom_moved, Word.ofTokensFrom_follow]
        exact (List.append_nil _).symm
      layers := reads.layers (fun _ => id) (List.cons_ne_nil _ _)
      reports := ⟨[], (List.append_nil _).symm, rfl, List.forall_mem_nil _⟩
      nesting := reads.nesting }
  obtain ⟨_, fresh, _⟩ := Reading.ofTokens_takes tokens
  exact (fresh.echoes_all (ofDepth_serves _) (GrammarState.ofTokens_fits tokens)
    (Echo.resumed_sound apart) (ofDepth_echoes e enough) rfl agrees takes).1

/-- Only an item that fails becomes an error node. -/
theorem Reading.topLevelItem_fails {tokens : List Token}
    (failed : (ofTokens tokens).items.head?.any Node.isError = true) :
    ∃ error failure, topLevelItem (.ofDepth tokens.length) (.ofTokens tokens) =
      .failed error failure := by
  obtain ⟨last, takes, _⟩ := ofTokens_takes tokens
  generalize (ofTokens tokens).items = items at takes failed
  cases takes with
  | ended => cases failed
  | @item _ middle _ node items here run later =>
    have meets := Rule.topLevelItem_reads (Grammar.ofDepth_serves tokens.length)
      (GrammarState.ofTokens_fits tokens)
    rcases meets.ends with ⟨found, after, runItem, _⟩ | ⟨error, failure, runItem, _⟩
    · rw [Rule.recovering_done runItem] at run
      cases run
      exact absurd (beq_iff_eq.mp failed) (Rule.topLevelItem_proper _ _ _ runItem)
    · exact ⟨error, failure, runItem⟩

/-- A line that fails becomes the first item, and what follows it is read like a stream of its
own. -/
theorem Reading.ofTokens_failedLine {tokens : List Token} {newline : Bool} {bytes : Nat}
    (line : Token.IsPlainLine front) (lines : ∀ token ∈ front, token.newlineBefore = false)
    (failed : (ofTokens front).items.head?.any Node.isError = true)
    (follows : back = Token.follow newline (tokens.map (·.shift bytes)))
    (apart : ∀ dot ∈ front, ∀ name ∈ back, name.span.start ≠ dot.span.stop)
    (foreign : ∀ name ∈ tokens, name.kind = .identifier → ∀ leaf ∈ front, leaf.text ≠ name.text ∧
      (leaf.kind = .punct .dot → ∀ rest, name.text ≠ leaf.text ++ rest)) :
    ∃ error, error.isError = true ∧ Covering (front ++ back) 0 [error.toChild] front.length ∧
      (ofTokens (front ++ back)).items = error :: (ofTokens tokens).items.map (·.mapTokens fun leaf =>
        (leaf.shift front.length).lineAt front.length newline) := by
  have words : Word.ofTokens (front ++ back) =
      Word.ofTokens front ++ Word.ofTokensFrom front.length back := by
    have whole := Word.ofTokensFrom_append 0 apart
    rwa [Nat.zero_add] at whole
  have enough : front.length ≤ (front ++ back).length := by
    rw [List.length_append]
    exact Nat.le_add_right _ _
  have sameLength : back.length = tokens.length := by
    rw [follows, Token.length_follow, List.length_map]
  have enough' : tokens.length ≤ (front ++ back).length := by
    rw [List.length_append, sameLength]
    exact Nat.le_add_left _ _
  obtain ⟨_, _, run⟩ := topLevelItem_fails failed
  obtain ⟨skipped, middle, run', rest⟩ := Rule.recovering_line line enough lines run
    (Echo.agrees_front (e := Echo.failing (Word.ofTokensFrom front.length back))
      (fun _ => rfl) rfl rfl words)
  obtain ⟨last, takes, _⟩ := ofTokens_takes (front ++ back)
  generalize (ofTokens (front ++ back)).items = items at takes
  cases takes with
  | ended ended =>
    obtain ⟨_, semicolon, whole, _⟩ := line.words
    rw [Cursor.peek?_normal rfl, Option.map_eq_none_iff] at ended
    change (Word.ofTokens (front ++ back))[0]? = none at ended
    rw [words, whole] at ended
    simp at ended
  | item here run'' later =>
    rw [run'] at run''
    cases run''
    have outcome := Rule.recoveringItem_reads (Grammar.ofDepth_serves _)
      (GrammarState.ofTokens_fits (front ++ back)) here
    have reads := (outcome.of_done run').reads
    have begins : (GrammarState.ofTokens (front ++ back)).At (front ++ back) 0 := rfl
    obtain ⟨stop, atStop, covering⟩ := reads.covers begins
    have reached : stop = front.length := by
      have within := covering.leaves.stop_le (Nat.zero_le _)
      have same := congrArg List.length (rest.symm.trans atStop)
      rw [Word.length_ofTokensFrom, Word.length_ofTokensFrom, List.length_drop] at same
      rw [List.length_append] at same within
      omega
    subst reached
    refine ⟨_, rfl, covering, congrArg (_ :: ·) ?_⟩
    refine later.resumed enough' reads (follows ▸ rest) fun name member isName read => ?_
    obtain ⟨leaf, taken, same⟩ := read
    rw [reads.taken, List.mem_append, List.mem_reverse] at taken
    have listed := taken.resolve_right List.not_mem_nil
    rcases (covering.leaves.front (Nat.le_refl _)).mem listed with
      ⟨token, inFront, _, text⟩ | ⟨_, dot, inFront, isDot, more, text⟩
    · exact (foreign name member isName token inFront).1 (text.symm.trans same)
    · exact (foreign name member isName dot inFront).2 isDot more (same.symm.trans text)

theorem Token.lineAt_mapSpan {leaf : Token} {place : Span → Span} {here there : Nat} {newline : Bool}
    (same : leaf.span.start = here ↔ (leaf.mapSpan place).span.start = there) :
    (leaf.lineAt here newline).mapSpan place = (leaf.mapSpan place).lineAt there newline := by
  unfold lineAt
  by_cases atHere : leaf.span.start = here
  · rw [if_pos atHere, if_pos (same.mp atHere)]
    rfl
  · rw [if_neg atHere, if_neg fun atThere => atHere (same.mpr atThere)]

theorem Span.preserves_shift (distance : Nat) : Span.Preserves (·.shift distance) := by
  intro first last
  simp [Span.cover, Span.shift, Nat.add_min_add_right, Nat.add_max_add_right]

section Behind

variable {front tokens : List Token} {bytes size size' : Nat} {newline : Bool} {span : Span}

theorem Token.getElem?_behind (front : List Token) (bytes : Nat) (newline : Bool) {i : Nat}
    {token : Token} (here : tokens[i]? = some token) :
    ∃ token', (front ++ follow newline (tokens.map (·.shift bytes)))[i + front.length]? = some token' ∧
      token'.span = token.span.shift bytes := by
  rw [List.getElem?_append_right (Nat.le_add_left _ _), Nat.add_sub_cancel]
  cases tokens with
  | nil => cases here
  | cons first rest =>
    cases i with
    | zero =>
      obtain rfl := Option.some.inj here
      exact ⟨_, rfl, rfl⟩
    | succ i =>
      refine ⟨token.shift bytes, ?_, rfl⟩
      change (rest.map (·.shift bytes))[i]? = _
      rw [List.getElem?_map, show rest[i]? = some token from here, Option.map_some]

/-- Spans of tokens that come behind others lie behind them in the text. -/
theorem Span.placeIn_behind (nonempty : span.start < span.stop) (within : span.stop ≤ tokens.length) :
    placeIn (front ++ Token.follow newline (tokens.map (·.shift bytes))) size'
        (span.shift front.length) = (placeIn tokens size span).shift bytes := by
  have atFirst := List.getElem?_eq_getElem (show span.start < tokens.length by omega)
  have atLast := List.getElem?_eq_getElem (show span.stop - 1 < tokens.length by omega)
  generalize tokens[span.start] = first at atFirst
  generalize tokens[span.stop - 1] = last at atLast
  obtain ⟨first', behindFirst, startFirst⟩ := Token.getElem?_behind front bytes newline atFirst
  obtain ⟨last', behindLast, stopLast⟩ := Token.getElem?_behind front bytes newline atLast
  rw [show span.stop - 1 + front.length = span.stop + front.length - 1 by omega] at behindLast
  refine (locate_eq (Nat.add_lt_add_right nonempty _) behindFirst behindLast).trans ?_
  rw [show span = ⟨span.start, span.stop⟩ from rfl, locate_eq nonempty atFirst atLast, startFirst, stopLast]
  rfl

/-- What is read behind a line is the same but for where it lies, and for what its first token is
told about the line. -/
theorem Node.mapTokens_behind {node : Node} (ordered : Token.Ordered size 0 tokens)
    (made : ∀ inner ∈ node.descendants, inner.IsMade)
    (placed : ∀ inner ∈ node.descendants, inner.IsPlaced tokens) :
    (node.mapTokens fun leaf => (leaf.shift front.length).lineAt front.length newline).mapSpan
        (Span.placeIn (front ++ Token.follow newline (tokens.map (·.shift bytes))) size') =
      ((node.mapSpan (Span.placeIn tokens size)).mapSpan (·.shift bytes)).mapLeaves
        (Token.lineAt (Token.startAt tokens size 0 + bytes) newline) := by
  let place := Span.placeIn (front ++ Token.follow newline (tokens.map (·.shift bytes))) size'
  have behind {span : Span} (nonempty : span.start < span.stop) (within : span.stop ≤ tokens.length) :
      place (span.shift front.length) = (Span.placeIn tokens size span).shift bytes :=
    Span.placeIn_behind nonempty within
  have spans (inner : Node) (below : inner ∈ node.descendants) :
      inner.span.start < inner.span.stop ∧ inner.span.stop ≤ tokens.length := by
    obtain ⟨start, stop, less, span, covers⟩ := placed inner below
    rw [span]
    exact ⟨less, covers.within less⟩
  have leaves (leaf : Token) (member : leaf ∈ node.leaves) :
      leaf.span.start < leaf.span.stop ∧ leaf.span.stop ≤ tokens.length := by
    obtain ⟨start, stop, less, _, covers⟩ := placed node (mem_preorder_self (List.mem_singleton_self node))
    have inside := covers.tiles.within leaf.span (List.mem_map_of_mem member)
    exact ⟨inside.2.1, inside.2.2.trans (covers.within less)⟩
  have still (leaf : Token) : (leaf.lineAt front.length newline).span = leaf.span := by
    unfold Token.lineAt
    split <;> rfl
  have moved := mapTokens_eq_mapLeaves (Span.preserves_shift front.length) still node made
  have changed (leaf : Token) (member : leaf ∈ (node.mapSpan (·.shift front.length)).leaves) :
      (leaf.lineAt front.length newline).mapSpan place =
        (leaf.mapSpan place).lineAt (Token.startAt tokens size 0 + bytes) newline := by
    rw [leaves_mapSpan] at member
    obtain ⟨leaf, inside, rfl⟩ := List.mem_map.mp member
    refine Token.lineAt_mapSpan ?_
    obtain ⟨nonempty, within⟩ := leaves leaf inside
    have rank : leaf.span.rank tokens.length = leaf.span.start := if_pos ⟨nonempty, within⟩
    change leaf.span.start + front.length = front.length ↔
      (place (leaf.span.shift front.length)).start = _
    rw [behind nonempty within, Span.shift]
    dsimp only
    rw [Span.start_placeIn, rank, Nat.add_eq_right, Nat.add_right_cancel_iff]
    constructor
    · intro first
      rw [first]
    · intro same
      refine Nat.eq_zero_of_not_pos fun later => ?_
      exact absurd same.symm (Nat.ne_of_lt (ordered.startAt_lt later (by omega)))
  have spansMoved : (node.mapSpan (·.shift front.length)).mapSpan place =
      (node.mapSpan (Span.placeIn tokens size)).mapSpan (·.shift bytes) := by
    rw [mapSpan_mapSpan, mapSpan_mapSpan]
    exact mapSpan_congr node (fun inner below => behind (spans inner below).1 (spans inner below).2)
      fun leaf member => behind (leaves leaf member).1 (leaves leaf member).2
  calc
    _ = ((node.mapSpan (·.shift front.length)).mapLeaves (Token.lineAt front.length newline)).mapSpan
        place := congrArg (mapSpan place) moved
    _ = ((node.mapSpan (·.shift front.length)).mapSpan place).mapLeaves
        (Token.lineAt (Token.startAt tokens size 0 + bytes) newline) := mapSpan_mapLeaves _ changed
    _ = _ := by rw [spansMoved]

end Behind

theorem Node.isError_mapSpan (place : Span → Span) (node : Node) :
    (node.mapSpan place).isError = node.isError := by
  rw [isError, isError, kind_mapSpan]

/-- A text on a single line, without lexical errors, of which the parser makes an error: its tokens
end with their only semicolon, and there are no braces and no lines of the preprocessor. -/
structure FailedLine (bad : String) : Prop where
  line : '\n' ∉ bad.toList
  clean : (tokenize bad).2 = []
  plain : Token.IsPlainLine (tokenize bad).1
  failed : (parse bad).tree.items.head?.any Node.isError = true

/-- One bad line does not disturb what follows: it becomes one error node with just its tokens, and
the text behind it, unless it has names in common with the line, is parsed like a text of its own.
Only the first token of this text may be told something else about the line. -/
theorem parse_failedLine {bad : String} (b : String) (failed : FailedLine bad)
    (apart : ∀ name ∈ (tokenize b).1, name.kind = .identifier →
      ∀ other ∈ (tokenize bad).1, other.kind = .identifier → other.text ≠ name.text) :
    ∃ error newline, error.isError = true ∧ error.leaves.flatMap Token.parts = (tokenize bad).1 ∧
      (parse (bad ++ "\n" ++ b)).tree.items = error :: (parse b).tree.items.map fun item =>
        (item.mapSpan (·.shift (byteLength bad.toList + 1))).mapLeaves
          (Token.lineAt (Token.startAt (tokenize b).1 (byteLength b.toList) 0 +
            (byteLength bad.toList + 1)) newline) := by
  obtain ⟨newline, tokens, _, _⟩ := tokenize_joined b failed.clean
  have simple := tokenize_simple bad
  have lineFails : (Reading.ofTokens (tokenize bad).1).items.head?.any Node.isError = true := by
    have fails := failed.failed
    rw [parse_items, List.head?_map, Option.any_map] at fails
    simpa only [Function.comp_def, Node.isError_mapSpan] using fails
  have foreign : ∀ name ∈ (tokenize b).1, name.kind = .identifier → ∀ leaf ∈ (tokenize bad).1,
      leaf.text ≠ name.text ∧ (leaf.kind = .punct .dot → ∀ rest, name.text ≠ leaf.text ++ rest) := by
    intro name member isName leaf inLine
    refine ⟨tokenize_apart failed.clean apart name member isName leaf inLine, fun dot rest same => ?_⟩
    obtain ⟨_, cut, _⟩ := tokenize_cut_from b name member
    obtain ⟨c, later, text, start⟩ := cut.head_identifier isName
    rw [same, ((simple leaf inLine).dot dot).1, String.toList_append] at text
    obtain ⟨rfl, _⟩ := List.cons.inj text
    exact absurd start (by decide)
  obtain ⟨error, isError, covering, items⟩ := Reading.ofTokens_failedLine failed.plain
    (tokenize_line failed.line) lineFails rfl (tokenize_apart_follow b newline) foreign
  have ordered := tokenize_ordered (bad ++ "\n" ++ b)
  have allSimple := tokenize_simple (bad ++ "\n" ++ b)
  rw [tokens] at ordered allSimple
  refine ⟨error.mapSpan (Span.placeIn (tokenize (bad ++ "\n" ++ b)).1
    (byteLength (bad ++ "\n" ++ b).toList)), newline, ?_, ?_, ?_⟩
  · rw [Node.isError_mapSpan, isError]
  · have parts := covering.leaves.parts ordered allSimple
    rw [List.drop_zero, Nat.sub_zero, List.take_left' rfl, Node.toChild, Node.leavesOfChildren_node,
      Node.leavesOfChildren_nil, List.append_nil] at parts
    rw [Node.leaves_mapSpan, tokens, parts]
  · rw [parse_items, parse_items, tokens, items, List.map_cons, List.map_map, List.map_map]
    obtain ⟨_, read, _, _⟩ := Reading.ofTokens_reads (tokenize b).1
    obtain ⟨_, _, covers⟩ := Reading.ofTokens_covering (tokenize b).1
    have made := read.reads.made
    have placed := covers.placed
    rw [Child.nodes_toChild] at made placed
    refine congrArg (_ :: ·) (List.map_congr_left fun item member => ?_)
    exact Node.mapTokens_behind (tokenize_ordered b)
      (fun inner below => made inner (Node.mem_preorder member below))
      fun inner below => placed inner (Node.mem_preorder member below)

theorem parse_failedLine_initializer :
    FailedLine "int a = ;" ∧ ∃ error newline, error.isError = true ∧
      error.leaves.flatMap Token.parts = (tokenize "int a = ;").1 ∧
      (parse ("int a = ;" ++ "\n" ++ "int b ;")).tree.items =
        error :: (parse "int b ;").tree.items.map fun item =>
          (item.mapSpan (·.shift (byteLength "int a = ;".toList + 1))).mapLeaves
            (Token.lineAt (Token.startAt (tokenize "int b ;").1 (byteLength "int b ;".toList) 0 +
              (byteLength "int a = ;".toList + 1)) newline) := by
  let bad := [Token.leaf (.keyword .int) "int", Token.leaf .identifier "a",
    Punctuator.assign.leaf, Punctuator.semicolon.leaf]
  let more := [Token.leaf (.keyword .int) "int", Token.leaf .identifier "b",
    Punctuator.semicolon.leaf]
  have name (text : String) (isName : IsName text) : (Token.leaf .identifier text).IsSpelled :=
    isName.isSpelled
  have first := name "a" ⟨by decide +kernel, by decide +kernel, by decide +kernel, by decide +kernel⟩
  have second := name "b" ⟨by decide +kernel, by decide +kernel, by decide +kernel, by decide +kernel⟩
  have semicolon := Punctuator.semicolon.leaf_isSpelled (by decide) (by decide)
  have spelled : ∀ token ∈ bad, token.IsSpelled := by
    simp only [bad, List.forall_mem_cons]
    exact ⟨Keyword.int_isSpelled, first, Punctuator.leaf_isSpelled _ (by decide) (by decide),
      semicolon, by simp⟩
  have moreSpelled : ∀ token ∈ more, token.IsSpelled := by
    simp only [more, List.forall_mem_cons]
    exact ⟨Keyword.int_isSpelled, second, semicolon, by simp⟩
  have read : tokenize "int a = ;" = (Token.placedFrom 0 bad, []) := tokenize_spaced spelled
  have readMore : tokenize "int b ;" = (Token.placedFrom 0 more, []) := tokenize_spaced moreSpelled
  have failed : FailedLine "int a = ;" :=
    { line := by decide
      clean := congrArg Prod.snd read
      plain := by
        rw [read]
        exact ⟨by decide +kernel, Token.placedFrom 0 (bad.take 3), _, rfl, rfl, by decide +kernel⟩
      failed := by
        rw [parse_items, List.head?_map, Option.any_map, read]
        decide +kernel }
  refine ⟨failed, parse_failedLine "int b ;" failed ?_⟩
  rw [read, readMore]
  decide +kernel

end OpenCLTree

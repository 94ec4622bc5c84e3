import OpenCLTree.Proofs.Diagnostics
import OpenCLTree.Proofs.Echo.Items
import OpenCLTree.Proofs.Echo.Stream
import OpenCLTree.Proofs.Lossless
import OpenCLTree.Proofs.TokenDependence

namespace OpenCLTree

/-- A run that meets the tokens of another one after others. -/
def Echo.later (before : List Token) (distance : Nat) : Echo where
  token := (·.shift distance)
  place := (·.shift distance)
  kind _ := rfl
  text _ := rfl
  span _ := rfl
  floor := distance
  above _ := Nat.le_add_left _ _
  before := before
  after := []
  reports := []
  foreign _ := False
  flat := false
  newline _ _ none := nomatch none

section Reading

variable {front back : List Token}

/-- When all of a stream has been read without a report, then the scopes are those of the file,
and everything else is read as behind any other tokens. -/
theorem Grammar.Takes.behind {sub : Grammar} {state last : GrammarState} {items : List Node}
    {place : Nat} {tokens : List Token} (takes : sub.Takes state items last)
    (mode : state.cursor.mode = .normal) (rest : state.cursor.rest = Word.ofTokensFrom place tokens)
    (reports : state.reports = []) (nesting : state.nesting = 0)
    (enough : (Grammar.ofDepth tokens.length).Echoes (.later state.cursor.taken place) sub) :
    ∀ error ∈ last.reports, (Echo.later state.cursor.taken place).Late error := by
  let start : GrammarState := ⟨.ofTokens tokens, state.scopes, [], 0⟩
  have serves := Grammar.ofDepth_serves tokens.length
  have fits : start.Fits (tokens.length + 1) :=
    ⟨(GrammarState.ofTokens_fits tokens).lawful, (GrammarState.ofTokens_fits tokens).fewer⟩
  have agrees : (Echo.later state.cursor.taken place).Agrees start state :=
    { mode := mode
      taken := rfl
      rest := by
        have shifted := Word.ofTokensFrom_shift place 0 tokens
        rw [Nat.zero_add] at shifted
        rw [rest, shifted]
        exact (List.append_nil _).symm
      layers := List.forall₂_same.mpr fun _ _ _ _ => rfl
      reports := ⟨[], reports, rfl, List.forall_mem_nil _⟩
      nesting := nesting }
  obtain ⟨fresh, freshLast, _, atFresh⟩ := Rule.takes_of_serves serves fits
  have sound : (Echo.later state.cursor.taken place).Sound start :=
    .ofStream rfl rfl rfl (fun _ => rfl) fun _ => id
  obtain ⟨_, agrees'⟩ := atFresh.echoes_all serves fits sound enough rfl agrees takes
  obtain ⟨late, reported, _, all⟩ := agrees'.reports
  rw [reported]
  exact all

/-- A stream that is read without errors is read in the same way when more tokens follow on
another line, and then all errors lie among these. -/
theorem Reading.ofTokens_append (clean : (ofTokens front).errors = [])
    (apart : ∀ dot ∈ front, ∀ name ∈ back, name.span.start ≠ dot.span.stop)
    (newline : ∀ token ∈ back.head?, token.newlineBefore = true) :
    (∃ more, (ofTokens (front ++ back)).items = (ofTokens front).items ++ more) ∧
      ∀ error ∈ (ofTokens (front ++ back)).errors, error.span.start < error.span.stop →
        front.length ≤ error.span.start := by
  have words : Word.ofTokens (front ++ back) =
      Word.ofTokens front ++ Word.ofTokensFrom front.length back := by
    have whole := Word.ofTokensFrom_append 0 apart
    rwa [Nat.zero_add] at whole
  have line : ∀ word ∈ (Word.ofTokensFrom front.length back).head?,
      word.token.newlineBefore = true := by
    cases back with
    | nil => simp [Word.ofTokensFrom]
    | cons token rest => simpa [Word.ofTokensFrom] using newline
  let e := Echo.longer (Word.ofTokensFrom front.length back) false fun _ => line
  obtain ⟨last, takes, errors⟩ := ofTokens_takes front
  obtain ⟨last', takes', errors'⟩ := ofTokens_takes (front ++ back)
  have serves := Grammar.ofDepth_serves front.length
  have fits := GrammarState.ofTokens_fits front
  have sound : e.Sound (.ofTokens front) := .ofStream rfl rfl rfl (fun _ => rfl) fun _ => id
  have enough : front.length ≤ (front ++ back).length := by
    rw [List.length_append]
    exact Nat.le_add_right _ _
  have agrees : e.Agrees (.ofTokens front) (.ofTokens (front ++ back)) :=
    Echo.agrees_front (fun _ => rfl) rfl rfl words
  have quiet : last.reports = [] := errors.symm.trans clean
  have echoes := Grammar.ofDepth_echoes e enough
  obtain ⟨more, middle, items, agrees', rest⟩ :=
    takes.echoes serves fits sound echoes (.inr (by rw [quiet]; exact Nat.zero_le _)) agrees takes'
  have trails := takes.trails serves fits sound echoes
  have ended : last.cursor.rest = [] := Cursor.rest_eq_nil trails.mode takes.at_end
  constructor
  · exact ⟨more, items.trans (congrArg (· ++ more) (items_mapTokens front))⟩
  · intro error member nonempty
    have reports : middle.reports = [] := by
      obtain ⟨late, all, count, _⟩ := agrees'.reports
      rw [quiet] at count
      rw [all, List.eq_nil_of_length_eq_zero count]
      rfl
    have words : middle.cursor.rest = Word.ofTokensFrom front.length back := by
      rw [agrees'.rest, ended]
      rfl
    have enough : back.length ≤ (front ++ back).length := by
      rw [List.length_append]
      exact Nat.le_add_left _ _
    have late := rest.behind (agrees'.mode.trans trails.mode) words reports
      (agrees'.nesting.trans trails.nesting) (Grammar.ofDepth_echoes _ enough)
    have grammatical := errors_grammatical (front ++ back) error member
    rw [errors'] at member
    exact late error member grammatical.1 nonempty

end Reading

theorem Token.mem_follow {newline : Bool} {tokens : List Token} {token : Token}
    (member : token ∈ follow newline tokens) : ∃ other ∈ tokens, token.span = other.span := by
  cases tokens with
  | nil => cases member
  | cons first rest =>
    rcases List.mem_cons.mp member with rfl | later
    · exact ⟨first, List.mem_cons_self, rfl⟩
    · exact ⟨token, List.mem_cons_of_mem _ later, rfl⟩

/-- What follows a text on another line begins behind it. -/
theorem tokenize_behind (a b : String) (newline : Bool) :
    ∀ token ∈ Token.follow newline ((tokenize b).1.map (·.shift (byteLength a.toList + 1))),
      byteLength a.toList + 1 ≤ token.span.start := by
  intro token member
  obtain ⟨shifted, inside, span⟩ := Token.mem_follow member
  obtain ⟨_, _, rfl⟩ := List.mem_map.mp inside
  rw [span]
  exact Nat.le_add_left _ _

theorem tokenize_apart_follow {a : String} (b : String) (newline : Bool) :
    ∀ dot ∈ (tokenize a).1, ∀ name ∈ Token.follow newline
      ((tokenize b).1.map (·.shift (byteLength a.toList + 1))), name.span.start ≠ dot.span.stop := by
  intro dot inFront name inBack
  have before := ((tokenize_ordered a).nonempty dot inFront).2
  have after := tokenize_behind a b newline name inBack
  omega

section Located

variable {front back : List Token} {size size' : Nat}

/-- Spans of tokens lie where they did when more tokens follow. -/
theorem Span.placeIn_append {span : Span} (nonempty : span.start < span.stop)
    (within : span.stop ≤ front.length) :
    placeIn (front ++ back) size' span = placeIn front size span := by
  have atFirst := List.getElem?_eq_getElem (show span.start < front.length by omega)
  have atLast := List.getElem?_eq_getElem (show span.stop - 1 < front.length by omega)
  have first : (front ++ back)[span.start]? = front[span.start]? :=
    List.getElem?_append_left (by omega)
  have last : (front ++ back)[span.stop - 1]? = front[span.stop - 1]? :=
    List.getElem?_append_left (by omega)
  exact (locate_eq nonempty (first.trans atFirst) (last.trans atLast)).trans
    (locate_eq nonempty atFirst atLast).symm

theorem Node.mapSpan_placeIn_append {node : Node}
    (placed : ∀ inner ∈ node.descendants, inner.IsPlaced front) :
    node.mapSpan (Span.placeIn (front ++ back) size') = node.mapSpan (Span.placeIn front size) := by
  refine mapSpan_congr node (fun inner below => ?_) fun leaf member => ?_
  · obtain ⟨start, stop, less, span, covers⟩ := placed inner below
    rw [span]
    exact Span.placeIn_append less (covers.within less)
  · obtain ⟨start, stop, less, _, covers⟩ :=
      placed node (mem_preorder_self (List.mem_singleton_self node))
    have inside := covers.tiles.within leaf.span (List.mem_map_of_mem member)
    exact Span.placeIn_append inside.2.1 (inside.2.2.trans (covers.within less))

/-- What lies behind the front of a stream starts behind the text of the front. -/
theorem Token.le_startAt_append {bound i : Nat} (after : ∀ token ∈ back, bound ≤ token.span.start)
    (atEnd : bound ≤ size) (beyond : front.length ≤ i) :
    bound ≤ startAt (front ++ back) size i := by
  unfold startAt
  rw [List.getElem?_append_right beyond]
  cases here : back[i - front.length]? with
  | none => exact atEnd
  | some token => exact after token (List.mem_of_getElem? here)

end Located

/-- What has been read without an error stays as it is when more text follows on another line:
the items remain the first items, and all diagnostics lie behind them. -/
theorem parse_append {a : String} (b : String) (clean : (parse a).diagnostics = [])
    (plain : ¬ ['\\'] <:+ a.toList) (noReturn : ¬ ['\\', '\r'] <:+ a.toList) :
    (parse (a ++ "\n" ++ b)).tree.items.take (parse a).tree.items.length = (parse a).tree.items ∧
      ∀ diagnostic ∈ (parse (a ++ "\n" ++ b)).diagnostics,
        byteLength a.toList < diagnostic.span.start := by
  obtain ⟨lexClean, grammarClean⟩ := (diagnostics_eq_nil a).mp clean
  obtain ⟨newline, tokens, lexErrors, line⟩ := tokenize_joined b lexClean
  obtain rfl := line plain noReturn
  have size : byteLength a.toList + 1 ≤ byteLength (a ++ "\n" ++ b).toList := by
    rw [String.toList_append, String.toList_append, Lexer.byteLength_append, Lexer.byteLength_append]
    exact Nat.le_add_right _ _
  have behind := tokenize_behind a b true
  obtain ⟨⟨more, items⟩, late⟩ := Reading.ofTokens_append grammarClean (tokenize_apart_follow b true)
    (by cases (tokenize b).1 <;> simp [Token.follow])
  rw [← tokens] at items late
  constructor
  · obtain ⟨last, read, _, _⟩ := Reading.ofTokens_reads (tokenize a).1
    have begins : (GrammarState.ofTokens (tokenize a).1).At (tokenize a).1 0 := rfl
    obtain ⟨_, _, covering⟩ := read.reads.covers begins
    have placed := covering.placed
    rw [Child.nodes_toChild] at placed
    rw [parse_items, parse_items, items, List.map_append, List.length_map,
      List.take_left' (List.length_map _), tokens]
    exact List.map_congr_left fun item member => Node.mapSpan_placeIn_append fun inner below =>
      placed inner (Node.mem_preorder member below)
  · intro diagnostic member
    have found := (diagnostics_perm _).mem_iff.mp (List.mem_map_of_mem member)
    rw [lexErrors] at found
    rcases List.mem_append.mp found with lexical | grammatical
    · obtain ⟨error, shifted, same⟩ := List.mem_map.mp lexical
      obtain ⟨inner, _, rfl⟩ := List.mem_map.mp shifted
      rw [Diagnostic.span, ← same]
      exact Nat.le_add_left _ _
    · obtain ⟨error, inside, same⟩ := List.mem_map.mp grammatical
      have kind := (Reading.errors_grammatical _ error inside).2
      rw [Diagnostic.span, ← same, ParseError.span_mapSpan _ kind, Span.start_placeIn, tokens]
      refine Token.le_startAt_append behind size ?_
      unfold Span.rank
      split
      · exact late error inside (by omega)
      · rw [List.length_append]
        exact Nat.le_add_right _ _

theorem parse_append_declaration :
    (parse "int x ;").diagnostics = [] ∧
      (parse ("int x ;" ++ "\n" ++ "int")).tree.items.take (parse "int x ;").tree.items.length =
        (parse "int x ;").tree.items ∧
      ∀ diagnostic ∈ (parse ("int x ;" ++ "\n" ++ "int")).diagnostics,
        byteLength "int x ;".toList < diagnostic.span.start := by
  let tokens := [Token.leaf (.keyword .int) "int", Token.leaf .identifier "x",
    Punctuator.semicolon.leaf]
  have name : IsName "x" :=
    ⟨by decide +kernel, by decide +kernel, by decide +kernel, by decide +kernel⟩
  have spelled : ∀ token ∈ tokens, token.IsSpelled := by
    simp only [tokens, List.forall_mem_cons]
    exact ⟨Keyword.int_isSpelled, name.isSpelled,
      Punctuator.leaf_isSpelled _ (by decide) (by decide), by simp⟩
  have read : tokenize "int x ;" = (Token.placedFrom 0 tokens, []) := tokenize_spaced spelled
  have clean : (parse "int x ;").diagnostics = [] := by
    rw [diagnostics_eq_nil, read]
    exact ⟨rfl, List.isEmpty_iff.mp (by decide +kernel)⟩
  exact ⟨clean, parse_append "int" clean (by decide +kernel) (by decide +kernel)⟩

end OpenCLTree

import OpenCLTree.Proofs.Echo.Loops
import OpenCLTree.Grammar.Directive

namespace OpenCLTree

namespace Word

/-- The words that are left on a line. -/
def line (words : List Word) : List Word :=
  words.takeWhile (!·.token.newlineBefore)

def nextLine (words : List Word) : List Word :=
  words.dropWhile (!·.token.newlineBefore)

theorem line_append_nextLine (words : List Word) : line words ++ nextLine words = words :=
  List.takeWhile_append_dropWhile

variable {word : Word} {rest words : List Word}

theorem line_same (same : word.token.newlineBefore = false) (rest : List Word) :
    line (word :: rest) = word :: line rest ∧ nextLine (word :: rest) = nextLine rest := by
  simp [line, nextLine, same]

theorem line_next (next : word.token.newlineBefore = true) (rest : List Word) :
    line (word :: rest) = [] ∧ nextLine (word :: rest) = word :: rest := by
  simp [line, nextLine, next]

/-- A line stays as it is when other lines come behind it. -/
theorem line_append {e : Echo} {after : List Word} (steady : e.Steady words)
    (next : ∀ word ∈ after.head?, word.token.newlineBefore = true) :
    line (words.map e.word ++ after) = (line words).map e.word ∧
      nextLine (words.map e.word ++ after) = (nextLine words).map e.word ++ after := by
  induction words with
  | nil =>
    cases after with
    | nil => exact ⟨rfl, rfl⟩
    | cons word rest => exact line_next (next word rfl) rest
  | cons word rest ih =>
    have same : (e.word word).token.newlineBefore = word.token.newlineBefore :=
      steady word List.mem_cons_self
    rw [List.map_cons, List.cons_append]
    cases newline : word.token.newlineBefore with
    | true =>
      have here := line_next (same.trans newline) (rest.map e.word ++ after)
      have first := line_next newline rest
      rw [here.1, here.2, first.1, first.2]
      exact ⟨rfl, rfl⟩
    | false =>
      have here := line_same (same.trans newline) (rest.map e.word ++ after)
      have first := line_same newline rest
      have later := ih fun word member => steady word (List.mem_cons_of_mem _ member)
      rw [here.1, here.2, first.1, first.2, later.1, later.2]
      exact ⟨rfl, rfl⟩

end Word

/-- The state after all words left on a line have been taken. -/
def GrammarState.endLine (state : GrammarState) : GrammarState :=
  { state with
    cursor := { state.cursor with
      taken := ((Word.line state.cursor.rest).map (·.token)).reverse ++ state.cursor.taken
      rest := Word.nextLine state.cursor.rest } }

theorem GrammarState.endLine_eq_self {state : GrammarState}
    (line : Word.line state.cursor.rest = []) : state.endLine = state := by
  have rest := Word.line_append_nextLine state.cursor.rest
  rw [line, List.nil_append] at rest
  unfold endLine
  rw [line, rest]
  rfl

theorem GrammarState.trails_endLine (state : GrammarState) : state.Trails 0 state.endLine where
  words := by
    cases words : state.cursor.rest with
    | nil => simp [endLine, words, Word.line, Word.nextLine]
    | cons word rest =>
      cases newline : word.token.newlineBefore with
      | true => simp [endLine, words, Word.line_next newline]
      | false =>
        right
        simp only [endLine, words, Word.line_same newline, List.map_cons, List.reverse_cons,
          List.tail_cons]
        exact ⟨by simp, List.dropWhile_suffix _⟩
  fewer := (List.dropWhile_suffix _).length_le
  mode := rfl
  nesting := rfl
  reports := List.prefix_rfl
  scopes := .refl _

theorem Echo.Agrees.endLine {e : Echo} {state other : GrammarState} (agrees : e.Agrees state other)
    (steady : e.Steady state.cursor.rest) (folded : e.flat = false) :
    e.Agrees state.endLine other.endLine := by
  have lines := Word.line_append steady (e.newline folded)
  rw [← agrees.rest] at lines
  refine { agrees with taken := ?_, rest := lines.2 }
  unfold GrammarState.endLine
  dsimp only
  rw [lines.1, agrees.taken]
  simp [Echo.word, Function.comp_def]

namespace Rule

variable {e : Echo} {guard : Guard} {state : GrammarState}

theorem many_line {step : Rule (Option Token)}
    (takes : ∀ state word rest, state.cursor.mode = .normal → state.cursor.rest = word :: rest →
      word.token.newlineBefore = false →
      step state = .done (some word.token) (state.pass word.token rest))
    (stops : ∀ state, state.cursor.mode = .normal → Word.line state.cursor.rest = [] →
      step state = .done none state)
    (normal : state.cursor.mode = .normal) :
    many step state = .done ((Word.line state.cursor.rest).map (·.token)) state.endLine := by
  unfold many loop
  generalize atRound : (fun (collected : List Token) => (_ : Rule (List Token ⊕ List Token))) = round
  have ends (collected : List Token) (more : Nat) (state : GrammarState)
      (normal : state.cursor.mode = .normal) (line : Word.line state.cursor.rest = []) :
      loopFor round (more + 1) collected state = .done collected state := by
    have ended : round collected state = .done (.inr collected) state := by
      rw [← atRound]
      exact bind_done (stops state normal line)
    exact bind_done ended
  have rounds (words : List Word) (more : Nat) (collected : List Token) (state : GrammarState)
      (normal : state.cursor.mode = .normal) (here : state.cursor.rest = words) :
      loopFor round (words.length + more + 1) collected state =
        .done (collected ++ (Word.line words).map (·.token)) state.endLine := by
    induction words generalizing collected state with
    | nil =>
      have line : Word.line state.cursor.rest = [] := by rw [here]; rfl
      rw [ends collected _ state normal line, GrammarState.endLine_eq_self line]
      exact congrArg (Outcome.done · state) (List.append_nil collected).symm
    | cons word rest ih =>
      cases newline : word.token.newlineBefore with
      | true =>
        have line := (Word.line_next newline rest).1
        rw [← here] at line ⊢
        rw [here, List.length_cons, ends collected _ state normal line, ← here, line,
          GrammarState.endLine_eq_self line]
        exact congrArg (Outcome.done · state) (List.append_nil collected).symm
      | false =>
        have line := Word.line_same newline rest
        have taken : round collected state =
            .done (.inl (collected ++ [word.token])) (state.pass word.token rest) := by
          rw [← atRound]
          exact bind_done (takes state word rest normal here newline)
        have goesOn : loopFor round ((word :: rest).length + more + 1) collected state =
            loopFor round (rest.length + more + 1) (collected ++ [word.token])
              (state.pass word.token rest) := by
          rw [List.length_cons, Nat.add_right_comm rest.length 1 more]
          exact bind_done taken
        rw [goesOn, ih _ (state.pass word.token rest) normal rfl]
        simp [GrammarState.endLine, GrammarState.pass, here, line]
  exact (rounds _ 0 [] state normal rfl).trans (by rw [List.nil_append])

theorem restOfLine_eq (normal : state.cursor.mode = .normal) :
    restOfLine state = .done ((Word.line state.cursor.rest).map (·.token)) state.endLine := by
  refine many_line (fun state word rest normal here newline => ?_) (fun state normal line => ?_) normal
  · rw [bind_done (EchoesAt.current_eq normal here)]
    simp only [newline, Bool.false_eq_true, if_false]
    exact bind_done (advance_eq normal here)
  · cases words : state.cursor.rest with
    | nil =>
      have found : current state = .done none state := by
        change Outcome.done (state.cursor.peek? 0) state = _
        rw [Cursor.peek?_normal normal, words]
        rfl
      exact bind_done found
    | cons word rest =>
      have newline : word.token.newlineBefore = true := by
        by_contra same
        rw [words, (Word.line_same (Bool.not_eq_true _ ▸ same) rest).1] at line
        cases line
      rw [bind_done (EchoesAt.current_eq normal words)]
      simp only [newline, if_true]
      rfl

theorem keeps_line {word : Word} {rest : List Word} (marks : word.token.kind.turn = .marks) :
    Keeps e guard guard (word :: rest) (Word.nextLine rest) := by
  refine .inr fun depth => ?_
  unfold Echo.Guards
  simp only [Word.closes_marks marks, Word.closes_line]
  rfl

/-- A line of the preprocessor is complete even where no word follows, since what comes after
stands on another line. -/
theorem line_echoes {kind : TokenKind} {form : Token → List Token → Node}
    (marks : kind.turn = .marks)
    (same : ∀ marker line,
      form (e.token marker) (line.map e.token) = (form marker line).mapTokens e.token) :
    (expect kind >>= fun marker => restOfLine >>= fun line => pure (form marker line)).EchoesAt
      e guard guard 0 1
      (expect kind >>= fun marker => restOfLine >>= fun line => pure (form marker line)) state := by
  by_cases found : ∃ word rest, state.cursor.rest = word :: rest ∧ word.token.kind = kind
  · obtain ⟨word, rest, words, isMarker⟩ := found
    have runs {state : GrammarState} {word : Word} {rest : List Word}
        (normal : state.cursor.mode = .normal) (words : state.cursor.rest = word :: rest)
        (isMarker : word.token.kind = kind) :
        (expect kind >>= fun marker => restOfLine >>= fun line => pure (form marker line)) state =
          .done (form word.token ((Word.line rest).map (·.token)))
            (state.pass word.token rest).endLine := by
      rw [bind_done (EchoesAt.expect_eq normal words isMarker)]
      exact bind_done (restOfLine_eq normal)
    intro sound
    have folded : e.flat = false := by
      by_contra flat
      have here : word ∈ state.cursor.rest := words ▸ List.mem_cons_self
      exact (sound.flat (Bool.not_eq_false _ ▸ flat) word here).2 (isMarker ▸ marks)
    have steady : e.Steady rest := by
      have tail := sound.steadyTail
      rwa [words] at tail
    rw [runs sound.mode words isMarker]
    refine ⟨(GrammarState.Trails.pass words).trans (GrammarState.trails_endLine _), ?_, ?_⟩
    · rw [words]
      exact keeps_line (isMarker ▸ marks)
    · intro _ other agrees
      have words' := agrees.words_eq words
      have isMarker' : (e.word word).token.kind = kind := (e.kind _).trans isMarker
      refine ⟨_, ?_, (agrees.pass word rest).endLine steady folded, ?_⟩
      · rw [runs (agrees.mode.trans sound.mode) words' isMarker',
          (Word.line_append steady (e.newline folded)).1, List.map_map, Echo.image_node, ← same,
          List.map_map]
        rfl
      · exact ((GrammarState.Trails.pass words').trans
          (GrammarState.trails_endLine _)).weaken (Nat.zero_le _)
  · exact .expectMissing fun word rest words same => found ⟨word, rest, words, same⟩

theorem pragmaNode_image (marker : Token) (line : List Token) :
    pragmaNode (e.token marker) (line.map e.token) = (pragmaNode marker line).mapTokens e.token := by
  have other (line : List Token) : pragmaNode.otherLine (e.token marker) (line.map e.token) =
      (pragmaNode.otherLine marker line).mapTokens e.token := by
    simp [pragmaNode.otherLine, Function.comp_def]
  rcases line with _ | ⟨first, _ | ⟨second, _ | ⟨third, _ | ⟨fourth, _ | ⟨fifth, _ | ⟨_, _⟩⟩⟩⟩⟩⟩
  case cons.cons.nil =>
    have others := other [first, second]
    simp only [List.map_cons, List.map_nil, pragmaNode, e.text, e.kind] at others ⊢
    split
    · simp
    · exact others
  case cons.cons.cons.cons.cons.nil =>
    have others := other [first, second, third, fourth, fifth]
    simp only [List.map_cons, List.map_nil, pragmaNode, e.text, e.kind] at others ⊢
    split
    · simp
    · exact others
  all_goals exact other _

theorem pragmaLine_echoes : pragmaLine.EchoesAt e guard guard 0 1 pragmaLine state :=
  line_echoes rfl pragmaNode_image

theorem directiveLine_echoes : directiveLine.EchoesAt e guard guard 0 1 directiveLine state :=
  line_echoes rfl fun marker line => by simp [Function.comp_def]

end Rule

end OpenCLTree

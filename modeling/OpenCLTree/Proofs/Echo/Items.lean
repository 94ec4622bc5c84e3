import OpenCLTree.Proofs.Echo.SourceFile
import OpenCLTree.Proofs.Grammar.Coverage
import OpenCLTree.Proofs.Reading

namespace OpenCLTree

namespace Echo

/-- A run that meets the tokens of another one, and then more: on another line, or behind a flat
stream. -/
def longer (after : List Word) (flat : Bool)
    (newline : flat = false → ∀ word ∈ after.head?, word.token.newlineBefore = true) : Echo where
  token := id
  place := id
  kind _ := rfl
  text _ := rfl
  span _ := rfl
  floor := 0
  above _ := Nat.zero_le _
  before := []
  after := after
  reports := []
  foreign _ := False
  flat := flat
  newline := newline

/-- A run on a longer stream agrees with a run on its front before either has begun. -/
theorem agrees_front {e : Echo} {tokens front : List Token} (same : ∀ leaf, e.token leaf = leaf)
    (before : e.before = []) (reports : e.reports = [])
    (words : Word.ofTokens tokens = Word.ofTokens front ++ e.after) :
    e.Agrees (.ofTokens front) (.ofTokens tokens) where
  mode := rfl
  taken := before.symm
  rest := by
    have still (word : Word) : e.word word = word := by
      have token : e.token = id := funext same
      simp [Echo.word, token]
    change Word.ofTokens tokens = (Word.ofTokens front).map e.word ++ e.after
    rw [words, List.map_congr_left fun word _ => still word, List.map_id']
  layers := List.forall₂_same.mpr fun _ _ _ _ => rfl
  reports := ⟨[], by rw [reports]; rfl, rfl, List.forall_mem_nil _⟩
  nesting := rfl

end Echo

/-- Which items a grammar takes from a state up to the end of the source. -/
inductive Grammar.Takes (sub : Grammar) : GrammarState → List Node → GrammarState → Prop
  | ended {state : GrammarState} :
      state.cursor.peek? 0 = none → Takes sub state [] state
  | item {state middle last : GrammarState} {node : Node} {items : List Node} :
      state.cursor.peek? 0 ≠ none →
      recovering .topLevel (topLevelItem sub) state = .done node middle →
      Takes sub middle items last → Takes sub state (node :: items) last

namespace Rule

variable {sub : Grammar} {state last : GrammarState}

/-- One round of reading items: none at the end of the source. -/
def nextItem (sub : Grammar) : Rule (Option Node) := do
  if ← atEnd then pure none
  else pure (some (← recovering .topLevel (topLevelItem sub)))

theorem nextItem_ended (ended : state.cursor.peek? 0 = none) :
    nextItem sub state = .done none state := by
  have looked : atEnd state = .done true state := by
    change Outcome.done (state.cursor.peek? 0).isNone state = _
    rw [ended]
    rfl
  unfold nextItem
  rw [bind_done looked]
  rfl

theorem nextItem_here (here : state.cursor.peek? 0 ≠ none) :
    nextItem sub state =
      (recovering .topLevel (topLevelItem sub) >>= fun node => pure (some node)) state := by
  have looked : atEnd state = .done false state := by
    change Outcome.done (state.cursor.peek? 0).isNone state = _
    rw [Option.isNone_eq_false_iff.mpr (Option.isSome_iff_ne_none.mpr here)]
  unfold nextItem
  rw [bind_done looked]
  rfl

theorem sourceItems_takes {items : List Node} (run : sourceItems sub state = .done items last) :
    sub.Takes state items last := by
  have rounds (count : Nat) (collected : List Node) (state : GrammarState)
      (run : loopFor (collect (nextItem sub)) count collected state = .done items last) :
      ∃ more, items = collected ++ more ∧ sub.Takes state more last := by
    induction count generalizing collected state with
    | zero => cases run
    | succ count ih =>
      obtain ⟨answer, middle, round, run⟩ := bind_inv run
      obtain ⟨found, between, atFound, round⟩ := bind_inv round
      by_cases ended : state.cursor.peek? 0 = none
      · rw [nextItem_ended ended] at atFound
        cases atFound
        cases round
        cases run
        exact ⟨[], by simp, .ended ended⟩
      · rw [nextItem_here ended] at atFound
        obtain ⟨node, after, atNode, given⟩ := bind_inv atFound
        cases given
        cases round
        obtain ⟨more, rfl, takes⟩ := ih _ _ run
        exact ⟨node :: more, by simp, .item ended atNode takes⟩
  change loop (collect (nextItem sub)) [] state = _ at run
  obtain ⟨more, same, takes⟩ := rounds (state.remaining + 1) [] state run
  rwa [same]

/-- The items are taken one after another, up to the end. -/
theorem takes_of_serves {room : Nat} (serves : sub.Serves room) (fits : state.Fits (room + 1)) :
    ∃ items last, sourceItems sub state = .done items last ∧ sub.Takes state items last := by
  rcases (sourceItems_reads serves fits).ends with ⟨items, last, run, _⟩ | ⟨_, _, _, never⟩
  · exact ⟨items, last, run, sourceItems_takes run⟩
  · exact never.elim

end Rule

theorem Reading.ofTokens_takes (tokens : List Token) :
    ∃ last, (Grammar.ofDepth tokens.length).Takes (.ofTokens tokens) (ofTokens tokens).items last ∧
      (ofTokens tokens).errors = last.reports := by
  obtain ⟨last, run, errors⟩ := ofTokens_run tokens
  exact ⟨last, Rule.sourceItems_takes run, errors⟩

/-- The items stay as they are when no token changes. -/
theorem Reading.items_mapTokens (tokens : List Token) :
    (ofTokens tokens).items.map (·.mapTokens id) = (ofTokens tokens).items := by
  obtain ⟨_, read, _, _⟩ := ofTokens_reads tokens
  have made := read.reads.made
  rw [Child.nodes_toChild] at made
  refine (List.map_congr_left fun item member => ?_).trans (List.map_id _)
  exact Node.mapTokens_id item fun inner below => made inner (Node.mem_preorder member below)

namespace Grammar.Takes

variable {sub one two : Grammar} {room : Nat} {e : Echo} {state other last last' : GrammarState}
  {items items' : List Node}

/-- Items echo, with what is skipped where they fail. -/
theorem recovering_item (serves : one.Serves room) (fits : state.Fits (room + 1))
    (echoes : one.Echoes e two) :
    (recovering .topLevel (topLevelItem one)).EchoesAt e none none 0 0
      (recovering .topLevel (topLevelItem two)) state :=
  Rule.recovering_echoes (Rule.topLevelItem_echoes echoes (.inl rfl) (serves.declares fits))

theorem trails (takes : one.Takes state items last) (serves : one.Serves room)
    (fits : state.Fits (room + 1)) (sound : e.Sound state) (echoes : one.Echoes e two) :
    state.Trails 0 last := by
  induction takes with
  | ended => exact .refl _
  | item _ run _ ih =>
    obtain ⟨trails, _⟩ := (recovering_item serves fits echoes).done sound run
    exact trails.trans (ih (fits.trail trails) (sound.trail trails))

/-- When a second run echoes a first one that reports nothing, or that nothing follows, then it
takes the same items before all others. -/
theorem echoes (takes : one.Takes state items last) (serves : one.Serves room)
    (fits : state.Fits (room + 1)) (sound : e.Sound state) (echoes : one.Echoes e two)
    (quiet : e.after = [] ∨ last.reports.length ≤ state.reports.length)
    (agrees : e.Agrees state other) (takes' : two.Takes other items' last') :
    ∃ more middle, items' = items.map (·.mapTokens e.token) ++ more ∧
      e.Agrees last middle ∧ two.Takes middle more last' := by
  induction takes generalizing other items' with
  | ended => exact ⟨items', other, rfl, agrees, takes'⟩
  | @item state middle last node items here run later ih =>
    obtain ⟨trails, _, follows⟩ := (recovering_item serves fits echoes).done sound run
    have rest := later.trails serves (fits.trail trails) (sound.trail trails) echoes
    have early := trails.reports.length_le
    have late := rest.reports.length_le
    have clear : Rule.Clear e none 0 state middle :=
      quiet.imp_right fun fewer => ⟨Nat.zero_le _, fun _ => Nat.le_trans late fewer⟩
    obtain ⟨between, run', agrees', _⟩ := follows clear other agrees
    have seen : e.Reaches 1 state := by
      refine .inr (Nat.one_le_iff_ne_zero.mpr fun none => here ?_)
      rw [Cursor.peek?_normal sound.mode, List.eq_nil_of_length_eq_zero none]
      rfl
    cases takes' with
    | ended ended =>
      rw [agrees.peek? sound seen, Option.map_eq_none_iff] at ended
      exact absurd ended here
    | item _ run'' later' =>
      rw [run'] at run''
      cases run''
      have quiet' := quiet.imp_right fun fewer => Nat.le_trans fewer early
      obtain ⟨more, final, same, agrees'', takes''⟩ :=
        ih (fits.trail trails) (sound.trail trails) quiet' agrees' later'
      exact ⟨more, final, by rw [same]; rfl, agrees'', takes''⟩

theorem eq_nil (takes : sub.Takes state items last) (ended : state.cursor.peek? 0 = none) :
    items = [] ∧ last = state := by
  cases takes with
  | ended => exact ⟨rfl, rfl⟩
  | item here => exact absurd ended here

theorem at_end (takes : sub.Takes state items last) : last.cursor.peek? 0 = none := by
  induction takes with
  | ended ended => exact ended
  | item _ _ _ ih => exact ih

/-- When nothing follows the words of the first run, the second one takes just the same items. -/
theorem echoes_all (takes : one.Takes state items last) (serves : one.Serves room)
    (fits : state.Fits (room + 1)) (sound : e.Sound state) (echoes : one.Echoes e two)
    (none : e.after = []) (agrees : e.Agrees state other) (takes' : two.Takes other items' last') :
    items' = items.map (·.mapTokens e.token) ∧ e.Agrees last last' := by
  obtain ⟨more, middle, same, agrees', rest⟩ :=
    takes.echoes serves fits sound echoes (.inl none) agrees takes'
  have ended : middle.cursor.peek? 0 = Option.none := by
    rw [agrees'.peek? (sound.trail (takes.trails serves fits sound echoes)) (.inl none),
      takes.at_end, Option.map_none]
  obtain ⟨rfl, rfl⟩ := rest.eq_nil ended
  exact ⟨same.trans (List.append_nil _), agrees'⟩

end Grammar.Takes

end OpenCLTree

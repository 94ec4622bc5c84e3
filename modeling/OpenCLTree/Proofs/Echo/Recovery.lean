import OpenCLTree.Proofs.Echo.Loops
import OpenCLTree.Grammar.Recovery

namespace OpenCLTree

namespace Echo

variable {e : Echo} {state other : GrammarState}

@[simp]
theorem image_tokens (e : Echo) (tokens : List Token) : e.image tokens = tokens.map e.token := rfl

@[simp]
theorem braceDepth_map (e : Echo) (tokens : List Token) :
    braceDepth (tokens.map e.token) = braceDepth tokens := by
  induction tokens with
  | nil => rfl
  | cons token rest ih => simp [braceDepth, braceChange, ih]

theorem Agrees.isSyncPoint (agrees : e.Agrees state other) {token : Token} (knows : e.Knows token)
    (steady : (e.token token).newlineBefore = token.newlineBefore) (level : RecoveryLevel)
    (depth : Int) :
    OpenCLTree.isSyncPoint other.scopes level depth (e.token token) =
      OpenCLTree.isSyncPoint state.scopes level depth token := by
  unfold OpenCLTree.isSyncPoint
  rw [e.kind, steady, agrees.startsDeclaration knows]

/-- The tokens taken since a place are the images of those that the first run took. -/
theorem Agrees.takenSince {state' other' : GrammarState} (starts : e.Agrees state other)
    (ends : e.Agrees state' other') :
    other'.cursor.takenSince other.cursor =
      (state'.cursor.takenSince state.cursor).map e.token := by
  unfold Cursor.takenSince
  rw [starts.taken, ends.taken, List.map_reverse, List.map_take]
  have length : (state'.cursor.taken.map e.token ++ e.before).length -
      (state.cursor.taken.map e.token ++ e.before).length =
        state'.cursor.taken.length - state.cursor.taken.length := by
    simp only [List.length_append, List.length_map]
    omega
  rw [length, List.take_append_of_le_length (by rw [List.length_map]; exact Nat.sub_le _ _)]

end Echo

namespace Rule

variable {e : Echo} {state after : GrammarState} {level : RecoveryLevel} {margin gain : Nat}

/-- One round of skipping. -/
def skip (level : RecoveryLevel) (soFar : List Token) : Rule (List Token ⊕ List Token) := do
  match ← current with
  | none => pure (.inr soFar)
  | some token =>
    let depth := braceDepth soFar
    if !soFar.isEmpty && isSyncPoint (← scopes) level depth token then pure (.inr soFar)
    else
      advance
      let longer := soFar ++ [token]
      if token.kind = .punct .semicolon ∧ depth ≤ 0 then pure (.inr longer)
      else pure (.inl longer)

theorem skipToSync_eq (level : RecoveryLevel) (skipped : List Token) :
    skipToSync level skipped = loop (skip level) skipped := rfl

/-- How skipping goes on at a token. -/
def skipAt (soFar : List Token) (stops : Bool) (token : Token) : Rule (List Token ⊕ List Token) :=
  if stops then pure (.inr soFar)
  else do
    advance
    if token.kind = .punct .semicolon ∧ braceDepth soFar ≤ 0 then pure (.inr (soFar ++ [token]))
    else pure (.inl (soFar ++ [token]))

theorem skip_echoes {soFar : List Token} (moved : soFar ≠ [] → state.cursor.taken ≠ []) :
    (skip level soFar).EchoesAt e none none 1 0 (skip level (e.image soFar)) state := by
  refine .current (fun _ => .ofValue (by simp)) fun word rest words => ?_
  have skipped (stops : Bool) : (skipAt soFar stops word.token).EchoesAt e none none 1 0
      (skipAt (e.image soFar) stops (e.token word.token)) state := by
    unfold skipAt
    cases stops with
    | true => exact .ofValue (by simp)
    | false =>
      refine .advance words (.inl rfl) ?_
      rw [e.kind, e.image_tokens, e.braceDepth_map]
      split <;> exact .ofValue (by simp)
  refine (skipped (!soFar.isEmpty && isSyncPoint state.scopes level (braceDepth soFar)
    word.token)).congr (fun _ => rfl) fun other sound agrees => ?_
  have same : (!(e.image soFar).isEmpty && isSyncPoint other.scopes level
      (braceDepth (e.image soFar)) (e.token word.token)) =
      (!soFar.isEmpty && isSyncPoint state.scopes level (braceDepth soFar) word.token) := by
    rw [e.isEmpty_image, e.image_tokens]
    cases soFar with
    | nil => rfl
    | cons first others =>
      have here : word ∈ state.cursor.rest := words ▸ List.mem_cons_self
      have steady := sound.steady (moved (List.cons_ne_nil _ _)) word here
      rw [e.braceDepth_map, agrees.isSyncPoint (sound.names word here) steady]
  rw [← same]
  rfl

/-- A round that goes on has taken a word. -/
theorem skip_taken {soFar next : List Token} (normal : state.cursor.mode = .normal)
    (run : skip level soFar state = .done (.inl next) after) : after.cursor.taken ≠ [] := by
  cases words : state.cursor.rest with
  | nil =>
    have looked : current state = .done none state := by
      change Outcome.done (state.cursor.peek? 0) state = _
      rw [Cursor.peek?_normal normal, words]
      rfl
    unfold skip at run
    rw [bind_done looked] at run
    cases run
  | cons word rest =>
    unfold skip at run
    rw [bind_done (EchoesAt.current_eq normal words)] at run
    change skipAt soFar (!soFar.isEmpty && isSyncPoint state.scopes level (braceDepth soFar)
      word.token) word.token state = _ at run
    unfold skipAt at run
    split at run
    · cases run
    · rw [bind_done (advance_eq normal words)] at run
      split at run
      · cases run
      · cases run
        exact List.cons_ne_nil _ _

theorem skipToSync_echoes {skipped : List Token} (moved : skipped ≠ [] → state.cursor.taken ≠ []) :
    (skipToSync level skipped).EchoesAt e none none 1 0 (skipToSync level (skipped.map e.token))
      state := by
  intro sound
  rw [skipToSync_eq, skipToSync_eq]
  refine EchoesAt.loop
    (fun soFar s => e.Sound s ∧ (soFar ≠ [] → s.cursor.taken ≠ []))
    (fun soFar s keeps => skip_echoes keeps.2) (fun soFar s next after keeps run => ?_)
    ⟨sound, moved⟩ (skip_echoes moved) sound
  obtain ⟨trails, _⟩ := (skip_echoes (e := e) keeps.2).done keeps.1 run
  exact ⟨keeps.1.trail trails, fun _ => skip_taken keeps.1.mode run⟩

/-- Whether skipping passes a token wherever it meets it. -/
structure Passable (token : Token) : Prop where
  line : token.newlineBefore = false
  brace : token.kind ≠ .punct .leftBrace ∧ token.kind ≠ .punct .rightBrace
  turn : token.kind.turn ≠ .marks

theorem braceDepth_flat {tokens : List Token}
    (flat : ∀ token ∈ tokens, token.kind ≠ .punct .leftBrace ∧ token.kind ≠ .punct .rightBrace) :
    braceDepth tokens = 0 := by
  induction tokens with
  | nil => rfl
  | cons token rest ih =>
    obtain ⟨here, later⟩ := List.forall_mem_cons.mp flat
    have still : braceChange token = 0 := by
      unfold braceChange
      split
      · exact absurd ‹_› here.1
      · exact absurd ‹_› here.2
      · rfl
    rw [braceDepth, still, ih later, Int.add_zero]

theorem Passable.isSyncPoint {token : Token} (passable : Passable token) (scopes : Scopes)
    (level : RecoveryLevel) (depth : Int) :
    OpenCLTree.isSyncPoint scopes level depth token = false := by
  have turn := passable.turn
  unfold OpenCLTree.isSyncPoint
  split
  · rename_i kind
    simp [kind, TokenKind.turn] at turn
  · rename_i kind
    simp [kind, TokenKind.turn] at turn
  · exact absurd ‹_› passable.brace.2
  · simp [passable.line]

/-- Whether no brace is among some tokens. -/
def Flat (tokens : List Token) : Prop :=
  ∀ token ∈ tokens, token.kind ≠ .punct .leftBrace ∧ token.kind ≠ .punct .rightBrace

/-- A round of skipping that meets such a token passes it, and is the last one at a semicolon. -/
theorem skip_passable (level : RecoveryLevel) {soFar : List Token} {word : Word} {rest : List Word}
    (normal : state.cursor.mode = .normal) (words : state.cursor.rest = word :: rest)
    (flat : Flat soFar) (passable : Passable word.token) :
    skip level soFar state =
      .done (if word.token.kind = .punct .semicolon then .inr (soFar ++ [word.token])
        else .inl (soFar ++ [word.token])) (state.pass word.token rest) := by
  unfold skip
  rw [bind_done (EchoesAt.current_eq normal words)]
  change skipAt soFar (!soFar.isEmpty && isSyncPoint state.scopes level (braceDepth soFar)
    word.token) word.token state = _
  rw [passable.isSyncPoint, Bool.and_false, skipAt, braceDepth_flat flat, if_neg Bool.false_ne_true,
    bind_done (advance_eq normal words)]
  by_cases kind : word.token.kind = .punct .semicolon
  · rw [if_pos ⟨kind, Int.le_refl 0⟩, if_pos kind]
    rfl
  · rw [if_neg fun both => kind both.1, if_neg kind]
    rfl

/-- Outside of braces skipping goes on up to a semicolon and takes it. -/
theorem skipToSync_line {front later : List Word} {semicolon : Word} {soFar : List Token}
    (normal : state.cursor.mode = .normal) (words : state.cursor.rest = front ++ semicolon :: later)
    (flat : Flat soFar) (passable : ∀ word ∈ front ++ [semicolon], Passable word.token)
    (others : ∀ word ∈ front, word.token.kind ≠ .punct .semicolon)
    (ends : semicolon.token.kind = .punct .semicolon) :
    ∃ tokens after, skipToSync level soFar state = .done tokens after ∧ after.cursor.rest = later := by
  have rounds (count : Nat) (enough : front.length < count) :
      ∃ tokens after, loopFor (skip level) count soFar state = .done tokens after ∧
        after.cursor.rest = later := by
    induction front generalizing count soFar state with
    | nil =>
      obtain ⟨count, rfl⟩ := Nat.exists_eq_add_one_of_ne_zero (Nat.ne_of_gt enough)
      have here := passable semicolon (List.mem_append_right _ (List.mem_singleton_self _))
      have round := skip_passable level normal words flat here
      rw [if_pos ends] at round
      exact ⟨_, _, bind_done round, rfl⟩
    | cons word rest ih =>
      obtain ⟨count, rfl⟩ := Nat.exists_eq_add_one_of_ne_zero (Nat.ne_of_gt (Nat.zero_lt_of_lt enough))
      have here := passable word (List.mem_append_left _ List.mem_cons_self)
      have round := skip_passable level normal words flat here
      rw [if_neg (others word List.mem_cons_self)] at round
      have longer : Flat (soFar ++ [word.token]) :=
        List.forall_mem_append.mpr ⟨flat, List.forall_mem_singleton.mpr here.brace⟩
      have passed : (state.pass word.token (rest ++ semicolon :: later)).cursor.mode = .normal := normal
      obtain ⟨tokens, after, run, atLater⟩ := ih passed rfl longer
        (fun other member => passable other (List.mem_cons_of_mem _ member))
        (fun other member => others other (List.mem_cons_of_mem _ member)) count
        (Nat.lt_of_succ_lt_succ enough)
      exact ⟨tokens, after, (bind_done round).trans run, atLater⟩
  refine rounds _ ?_
  rw [GrammarState.remaining, words, List.length_append, List.length_cons]
  omega

/-- What recovering does after an item has failed. -/
theorem recovering_failed {item : Rule Node} {error : ParseError}
    (normal : after.cursor.mode = .normal) (run : item state = .failed error after) :
    recovering level item state =
      (skipToSync level (after.cursor.takenSince state.cursor) >>= fun tokens =>
        pure (Node.make .error (tokens.map Token.toChild))) (after.report error) := by
  have reported : report error after = .done () (after.report error) := rfl
  have mode : setMode .normal (after.report error) = .done () (after.report error) := by
    obtain ⟨⟨mode, taken, rest⟩, scopes, reports, nesting⟩ := after
    cases normal
    rfl
  unfold recovering
  rw [bind_done (snapshot_done state), bind_done (attempt_failed run)]
  dsimp only
  unfold recover
  rw [bind_done reported, bind_done mode]
  rfl

theorem recovering_done {item : Rule Node} {node : Node} (run : item state = .done node after) :
    recovering level item state = .done node after :=
  (bind_done (snapshot_done state)).trans (bind_done (attempt_done run))

theorem recovering_exhausted {item : Rule Node} (run : item state = .exhausted) :
    recovering level item state = .exhausted :=
  (bind_done (snapshot_done state)).trans (bind_exhausted (attempt_exhausted run))

theorem takenSince_moved {first : GrammarState}
    (moved : after.cursor.takenSince first.cursor ≠ []) : after.cursor.taken ≠ [] := by
  intro none
  apply moved
  simp [Cursor.takenSince, none]

/-- An item, or what is skipped where it fails. Where words are to follow, the second run need not
fail as the first did. -/
theorem recovering_echoes {item item' : Rule Node}
    (echoes : item.EchoesAt e none none margin gain item' state) :
    (recovering level item).EchoesAt e none none margin 0 (recovering level item') state := by
  intro sound
  cases run : item state with
  | exhausted =>
    rw [recovering_exhausted run]
    trivial
  | done node after =>
    obtain ⟨trails, keeps, follows⟩ := echoes.done sound run
    rw [recovering_done run]
    refine ⟨trails.weaken (Nat.zero_le _), keeps, fun clear other agrees => ?_⟩
    obtain ⟨last, run', agrees', trails'⟩ := follows clear other agrees
    exact ⟨last, recovering_done run', agrees', trails'⟩
  | failed error after =>
    obtain ⟨trails, follows⟩ := echoes.failed sound run
    have sound' : e.Sound (after.report error) := (sound.trail trails).ofCursor rfl
    have skips : (skipToSync level (after.cursor.takenSince state.cursor) >>= fun tokens =>
          pure (Node.make .error (tokens.map Token.toChild))).EchoesAt e none none 1 0
        (skipToSync level ((after.cursor.takenSince state.cursor).map e.token) >>= fun tokens =>
          pure (Node.make .error (tokens.map Token.toChild))) (after.report error) :=
      .give (skipToSync_echoes takenSince_moved) fun tokens => by simp [Function.comp_def]
    have reported := trails.trans (.report error after)
    -- Where no words are to follow, the second run gets to skipping as the first one does.
    have replays (none : e.after = []) (other : GrammarState) (agrees : e.Agrees state other) :
        ∃ middle, e.Agrees (after.report error) middle ∧ other.Trails 0 middle ∧
          recovering level item' other =
            (skipToSync level ((after.cursor.takenSince state.cursor).map e.token) >>= fun tokens =>
              pure (Node.make .error (tokens.map Token.toChild))) middle := by
      obtain ⟨error', middle, run', late, agrees', trails'⟩ :=
        (follows (Echo.guards_none.mpr none)).2 other agrees
      refine ⟨middle.report error', agrees'.report error late,
        trails'.trans (.report error' middle), ?_⟩
      rw [recovering_failed (agrees'.mode.trans (sound.trail trails).mode) run',
        agrees.takenSince agrees']
    rw [recovering_failed (sound.trail trails).mode run]
    cases runSkip : (skipToSync level (after.cursor.takenSince state.cursor) >>= fun tokens =>
        pure (Node.make .error (tokens.map Token.toChild))) (after.report error) with
    | exhausted => trivial
    | failed error' last =>
      obtain ⟨trails', follows'⟩ := skips.failed sound' runSkip
      refine ⟨(reported.trans trails').weaken (Nat.zero_le _), fun guards => ?_⟩
      have none : e.after = [] := Echo.guards_none.mp guards
      exact ⟨.inl none, (follows' (.inl none)).2.replay (replays none)⟩
    | done node last =>
      obtain ⟨trails', _, follows'⟩ := skips.done sound' runSkip
      refine ⟨(reported.trans trails').weaken (Nat.zero_le _), .inl rfl, fun clear => ?_⟩
      have none : e.after = [] := by
        refine clear.resolve_right fun ⟨_, quiet⟩ => ?_
        have early := trails.reports.length_le
        have late := trails'.reports.length_le
        have fewer := quiet rfl
        simp only [GrammarState.length_reports_report] at late
        omega
      exact (follows' (.inl none)).replay (replays none)

end Rule

end OpenCLTree

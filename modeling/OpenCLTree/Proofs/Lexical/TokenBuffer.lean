import OpenCLTree.Proofs.Lexical.Cuts

namespace OpenCLTree

variable {text : List Char}

namespace TokenBuffer

/-- Whether a buffer can be used: its lexer stands in the text, its tokens are cut from it, and
its position is not beyond them. -/
structure Sound (text : List Char) (buffer : TokenBuffer) : Prop where
  lexer : buffer.lexer.Stands text
  tokens : ∀ buffered ∈ buffer.tokens, buffered.token.IsCutFrom text
  position : buffer.position ≤ buffer.tokens.length

theorem ofText_sound (text : List Char) : (ofText text).Sound text where
  lexer := Lexer.ofText_stands text
  tokens _ member := nomatch member
  position := Nat.le_refl 0

namespace Sound

variable {buffer : TokenBuffer} {index : Nat}

theorem setMode (sound : buffer.Sound text) (mode : LexMode) : (buffer.setMode mode).Sound text :=
  ⟨sound.lexer, sound.tokens, sound.position⟩

theorem span_usable (sound : buffer.Sound text) {buffered : BufferedToken}
    (here : buffer.tokens[index]? = some buffered) : buffered.token.span.IsUsable text :=
  Span.isUsable_of_slice? (sound.tokens _ (List.mem_of_getElem? here))

theorem endBefore_boundary (sound : buffer.Sound text) (index : Nat) :
    IsBoundary text (buffer.endBefore index) := by
  cases index with
  | zero => exact .zero text
  | succ index =>
    rw [endBefore]
    cases here : buffer.tokens[index]? with
    | none => exact .zero text
    | some buffered => exact (sound.span_usable here).stop

/-- A token can be forgotten unless it has been passed. -/
theorem revalidate? (sound : buffer.Sound text) (ahead : buffer.position ≤ index) :
    ∃ after, buffer.revalidate? index = some after ∧ after.Sound text ∧
      after.position = buffer.position := by
  unfold TokenBuffer.revalidate?
  cases here : buffer.tokens[index]? with
  | none => exact ⟨buffer, rfl, sound, rfl⟩
  | some buffered =>
    dsimp only
    split
    · exact ⟨buffer, rfl, sound, rfl⟩
    obtain ⟨front, rest, split, atStart⟩ := (sound.span_usable here).start
    obtain ⟨before, since, split', atEnd⟩ := sound.endBefore_boundary index
    have toStart := dropBytes?_eq_some.mpr ⟨front, split, atStart⟩
    have toEnd := dropBytes?_eq_some.mpr ⟨before, split', atEnd⟩
    unfold Lexer.reset?
    rw [sound.lexer.source, toStart, toEnd]
    refine ⟨_, rfl, ⟨?_, ?_, ?_⟩, rfl⟩
    · exact ⟨rfl, toStart, ⟨since, toEnd, rfl⟩, sound.lexer.errors⟩
    · exact fun other member => sound.tokens other (List.mem_of_mem_take member)
    · have within := sound.position
      rw [List.length_take]
      exact Nat.le_min.mpr ⟨ahead, within⟩

theorem revalidate?_all (sound : buffer.Sound text) (indices : List Nat)
    (ahead : ∀ index ∈ indices, buffer.position ≤ index) :
    ∃ after, indices.foldlM TokenBuffer.revalidate? buffer = some after ∧ after.Sound text ∧
      after.position = buffer.position := by
  induction indices generalizing buffer with
  | nil => exact ⟨buffer, rfl, sound, rfl⟩
  | cons index indices ih =>
    obtain ⟨next, valid, sound, same⟩ := sound.revalidate? (ahead index (List.mem_cons_self ..))
    obtain ⟨after, rest, sound, same'⟩ := ih sound fun later member =>
      same ▸ ahead later (List.mem_cons_of_mem _ member)
    refine ⟨after, ?_, sound, same'.trans same⟩
    rw [List.foldlM_cons, valid]
    exact rest

theorem readMore? (sound : buffer.Sound text) (count : Nat) :
    ∃ after, buffer.readMore? count = some after ∧ after.Sound text ∧
      after.position = buffer.position := by
  induction count generalizing buffer with
  | zero => exact ⟨buffer, rfl, sound, rfl⟩
  | succ count ih =>
    unfold TokenBuffer.readMore?
    split
    · exact ⟨buffer, rfl, sound, rfl⟩
    have inMode : Lexer.Stands text { buffer.lexer with mode := buffer.mode } :=
      ⟨sound.lexer.source, sound.lexer.rest, sound.lexer.since, sound.lexer.errors⟩
    obtain ⟨stands, cut⟩ := Lexer.next_stands inMode
    rw [Lexer.cutNext?_eq inMode]
    cases read : Lexer.next { buffer.lexer with mode := buffer.mode } with
    | mk next lexer =>
      rw [read] at stands cut
      cases next with
      | none => exact ⟨_, rfl, ⟨stands, sound.tokens, sound.position⟩, rfl⟩
      | some token =>
        have more : TokenBuffer.Sound text { buffer with
            lexer, tokens := buffer.tokens ++ [⟨token, buffer.mode⟩] } := by
          refine ⟨stands, List.forall_mem_append.mpr ⟨sound.tokens, ?_⟩, ?_⟩
          · exact List.forall_mem_singleton.mpr (cut token rfl)
          · have within := sound.position
            simp only [List.length_append]
            omega
        exact ih more

theorem fill? (sound : buffer.Sound text) (index : Nat) :
    ∃ token? after, buffer.fill? index = some (token?, after) ∧ after.Sound text ∧
      after.position = buffer.position ∧ (token?.isSome → index < after.tokens.length) := by
  obtain ⟨after, read, sound, same⟩ := sound.readMore? (index + 1 - buffer.tokens.length)
  refine ⟨(after.tokens[index]?).map (·.token), after, ?_, sound, same, ?_⟩
  · rw [TokenBuffer.fill?, read]
    rfl
  · simp

theorem peek? (sound : buffer.Sound text) (ahead : Nat) :
    ∃ token? after, buffer.peek? ahead = some (token?, after) ∧ after.Sound text ∧
      after.position = buffer.position := by
  obtain ⟨valid, revalidated, sound, same⟩ := sound.revalidate?_all
    (List.range' buffer.position (ahead + 1)) fun index member => (List.mem_range'_1.mp member).1
  obtain ⟨token?, after, filled, sound, same', _⟩ := sound.fill? (valid.position + ahead)
  refine ⟨token?, after, ?_, sound, same'.trans same⟩
  rw [TokenBuffer.peek?, revalidated]
  exact filled

theorem advance? (sound : buffer.Sound text) :
    ∃ token? after, buffer.advance? = some (token?, after) ∧ after.Sound text ∧
      buffer.position ≤ after.position := by
  obtain ⟨token?, after, filled, sound, same, there⟩ := sound.fill? buffer.position
  unfold TokenBuffer.advance?
  rw [filled]
  cases token? with
  | none => exact ⟨none, after, rfl, sound, Nat.le_of_eq same.symm⟩
  | some token =>
    have within := there rfl
    refine ⟨some token, _, rfl, ⟨sound.lexer, sound.tokens, ?_⟩, ?_⟩
    · exact same ▸ within
    · exact same ▸ Nat.le_succ _

theorem takenSince? (sound : buffer.Sound text) (start : Nat) :
    ∃ taken, buffer.takenSince? start = some taken :=
  ⟨_, if_pos sound.position⟩

end Sound

end TokenBuffer

namespace BufferSession

/-- Whether a session can go on: its buffer can be used, and of its checkpoints none lies behind
the position or behind a later one. -/
structure Sound (text : List Char) (session : BufferSession) : Prop where
  buffer : session.buffer.Sound text
  checkpoints : (session.buffer.position :: session.checkpoints.map (·.position)).Pairwise (· ≥ ·)

theorem ofText_sound (text : List Char) : (ofText text).Sound text :=
  ⟨TokenBuffer.ofText_sound text, List.pairwise_singleton _ _⟩

namespace Sound

variable {session : BufferSession}

theorem withBuffer (sound : session.Sound text) {buffer : TokenBuffer} (usable : buffer.Sound text)
    (ahead : session.buffer.position ≤ buffer.position) :
    ({ session with buffer } : BufferSession).Sound text := by
  obtain ⟨before, pairwise⟩ := List.pairwise_cons.mp sound.checkpoints
  refine ⟨usable, List.pairwise_cons.mpr ⟨fun position member => ?_, pairwise⟩⟩
  exact Nat.le_trans (before position member) ahead

/-- Every operation on a buffer in use succeeds, and leaves it in use. -/
theorem step? (sound : session.Sound text) (step : BufferStep) :
    ∃ after, session.step? step = some after ∧ after.Sound text := by
  unfold BufferSession.step?
  cases step with
  | setMode mode => exact ⟨_, rfl, sound.withBuffer (sound.buffer.setMode mode) (Nat.le_refl _)⟩
  | peek ahead =>
    obtain ⟨_, buffer, peeked, usable, same⟩ := sound.buffer.peek? ahead
    dsimp only
    rw [peeked]
    exact ⟨_, rfl, sound.withBuffer usable (Nat.le_of_eq same.symm)⟩
  | advance =>
    obtain ⟨_, buffer, advanced, usable, ahead⟩ := sound.buffer.advance?
    dsimp only
    rw [advanced]
    exact ⟨_, rfl, sound.withBuffer usable ahead⟩
  | takenSince start =>
    obtain ⟨taken, cut⟩ := sound.buffer.takenSince? start
    dsimp only
    rw [cut]
    exact ⟨session, rfl, sound⟩
  | checkpoint =>
    refine ⟨_, rfl, sound.buffer, List.pairwise_cons.mpr ⟨?_, sound.checkpoints⟩⟩
    have before := (List.pairwise_cons.mp sound.checkpoints).1
    exact List.forall_mem_cons.mpr ⟨Nat.le_refl _, before⟩
  | rewind newer =>
    dsimp only
    split
    · exact ⟨session, rfl, sound⟩
    · rename_i target older dropped
      obtain ⟨before, pairwise⟩ := List.pairwise_cons.mp sound.checkpoints
      have kept : (target :: older).map (·.position) =
          (session.checkpoints.map (·.position)).drop newer := by rw [← dropped, List.map_drop]
      have ordered := pairwise.sublist (List.drop_sublist newer _)
      rw [← kept, List.map_cons] at ordered
      have passed : target.position ≤ session.buffer.position := by
        refine before _ (List.mem_map_of_mem ?_)
        exact List.mem_of_mem_drop (dropped ▸ List.mem_cons_self ..)
      refine ⟨_, rfl, ⟨sound.buffer.lexer, sound.buffer.tokens, ?_⟩, ?_⟩
      · exact Nat.le_trans passed sound.buffer.position
      · refine List.pairwise_cons.mpr ⟨?_, ordered⟩
        exact List.forall_mem_cons.mpr ⟨Nat.le_refl _, (List.pairwise_cons.mp ordered).1⟩

theorem run? (sound : session.Sound text) (steps : List BufferStep) :
    ∃ after, session.run? steps = some after ∧ after.Sound text := by
  induction steps generalizing session with
  | nil => exact ⟨session, rfl, sound⟩
  | cons step steps ih =>
    obtain ⟨next, stepped, sound⟩ := sound.step? step
    obtain ⟨after, rest, sound⟩ := ih sound
    refine ⟨after, ?_, sound⟩
    rw [BufferSession.run?, List.foldlM_cons, stepped]
    exact rest

end Sound

end BufferSession

end OpenCLTree

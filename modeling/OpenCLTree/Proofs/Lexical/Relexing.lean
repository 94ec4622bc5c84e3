import OpenCLTree.Proofs.Lexical.Pieces
import OpenCLTree.Proofs.Lexical.TokenBuffer

namespace OpenCLTree

variable {text : List Char}

namespace TokenBuffer

/-- Whether a buffer has read its text in whatever order: its lexer stands somewhere along the
text, its tokens begin where the lexer has been, and it is exhausted at the end only. -/
structure Traces (text : List Char) (buffer : TokenBuffer) : Prop where
  along : ∃ place reach, buffer.lexer.Along text place reach ∧
    ∀ buffered ∈ buffer.tokens, ∃ first ≤ reach,
      buffered.token.span.start = (Lexer.afterPieces text first).offset
  ended : buffer.exhausted = true → buffer.lexer.rest = []

theorem ofText_traces (text : List Char) : (ofText text).Traces text where
  along := ⟨0, 0, Lexer.ofText_along text, by simp [ofText]⟩
  ended := nofun

namespace Traces

variable {buffer after : TokenBuffer} {index : Nat}

/-- Where the lexer goes back to, it has been before. -/
theorem revalidate? (traces : buffer.Traces text) (source : buffer.lexer.source = text)
    (valid : buffer.revalidate? index = some after) : after.Traces text := by
  obtain ⟨place, reach, along, begins⟩ := traces.along
  unfold TokenBuffer.revalidate? at valid
  split at valid
  · cases valid
    exact traces
  · rename_i buffered here
    split at valid
    · cases valid
      exact traces
    · obtain ⟨first, known, start⟩ := begins buffered (List.mem_of_getElem? here)
      have there := (Lexer.afterPieces_stands text first).rest
      rw [← start] at there
      simp only [Lexer.reset?, source, there, Option.map_some, Option.some.injEq] at valid
      subst valid
      refine ⟨⟨first, reach, ⟨known, start, rfl, along.errors⟩, ?_⟩, nofun⟩
      exact fun other member => begins other (List.mem_of_mem_take member)

theorem revalidate?_all (traces : buffer.Traces text) (sound : buffer.Sound text)
    (indices : List Nat) (ahead : ∀ index ∈ indices, buffer.position ≤ index)
    (valid : indices.foldlM TokenBuffer.revalidate? buffer = some after) : after.Traces text := by
  induction indices generalizing buffer with
  | nil =>
    cases valid
    exact traces
  | cons index indices ih =>
    obtain ⟨next, first, sound', same⟩ := sound.revalidate? (ahead index List.mem_cons_self)
    rw [List.foldlM_cons, first] at valid
    refine ih (traces.revalidate? sound.lexer.source first) sound' (fun later member => ?_) valid
    exact same ▸ ahead later (List.mem_cons_of_mem _ member)

/-- A buffer that has not read as many tokens as it was asked for is exhausted. -/
theorem readMore? {count : Nat} (traces : buffer.Traces text) (stands : buffer.lexer.Stands text)
    (read : buffer.readMore? count = some after) :
    after.Traces text ∧
      (after.exhausted = true ∨ buffer.tokens.length + count ≤ after.tokens.length) := by
  induction count generalizing buffer with
  | zero =>
    cases read
    exact ⟨traces, .inr (Nat.le_refl _)⟩
  | succ count ih =>
    unfold TokenBuffer.readMore? at read
    split at read
    · rename_i exhausted
      cases read
      exact ⟨traces, .inl exhausted⟩
    rename_i goesOn
    obtain ⟨place, reach, along, begins⟩ := traces.along
    have stands' : Lexer.Stands text { buffer.lexer with mode := buffer.mode } :=
      ⟨stands.source, stands.rest, stands.since, stands.errors⟩
    have along' : Lexer.Along text place reach { buffer.lexer with mode := buffer.mode } :=
      ⟨along.ahead, along.offset, along.rest, along.errors⟩
    rw [Lexer.cutNext?_eq stands'] at read
    obtain ⟨passed, _⟩ := Lexer.next_stands stands'
    obtain ⟨place', reach', more, later, first, ended⟩ := along'.next
    cases next : Lexer.next { buffer.lexer with mode := buffer.mode } with
    | mk token? lexer =>
      rw [next] at read passed later first ended
      have begins' : ∀ buffered ∈ buffer.tokens, ∃ first ≤ reach',
          buffered.token.span.start = (Lexer.afterPieces text first).offset :=
        fun buffered member => by
          obtain ⟨first, known, start⟩ := begins buffered member
          exact ⟨first, Nat.le_trans known more, start⟩
      cases token? with
      | none =>
        cases read
        exact ⟨⟨⟨place', reach', later, begins'⟩, fun _ => ended rfl⟩, .inl rfl⟩
      | some token =>
        have traces' : TokenBuffer.Traces text { buffer with
            lexer, tokens := buffer.tokens ++ [⟨token, buffer.mode⟩] } := by
          refine ⟨⟨place', reach', later, List.forall_mem_append.mpr ⟨begins', ?_⟩⟩, ?_⟩
          · exact List.forall_mem_singleton.mpr (first token rfl)
          · exact fun exhausted => absurd exhausted goesOn
        obtain ⟨traces'', enough⟩ := ih traces' passed read
        refine ⟨traces'', enough.imp_right fun enough => ?_⟩
        rw [List.length_append, List.length_singleton] at enough
        omega

theorem fill? {token? : Option Token} (traces : buffer.Traces text) (sound : buffer.Sound text)
    (filled : buffer.fill? index = some (token?, after)) :
    after.Traces text ∧ (token? = none → after.exhausted = true) := by
  unfold TokenBuffer.fill? at filled
  obtain ⟨next, read, rest⟩ := Option.bind_eq_some_iff.mp filled
  obtain ⟨traces', enough⟩ := traces.readMore? sound.lexer read
  cases rest
  refine ⟨traces', fun missing => enough.resolve_right fun enough => ?_⟩
  rw [Option.map_eq_none_iff, List.getElem?_eq_none_iff] at missing
  omega

theorem peek? {ahead : Nat} {token? : Option Token} (traces : buffer.Traces text)
    (sound : buffer.Sound text) (peeked : buffer.peek? ahead = some (token?, after)) :
    after.Traces text ∧ (token? = none → after.exhausted = true) := by
  have later : ∀ index ∈ List.range' buffer.position (ahead + 1), buffer.position ≤ index :=
    fun index member => (List.mem_range'_1.mp member).1
  obtain ⟨valid, revalidated, sound', _⟩ := sound.revalidate?_all _ later
  rw [TokenBuffer.peek?, revalidated] at peeked
  exact (traces.revalidate?_all sound _ later revalidated).fill? sound' peeked

theorem advance? {token? : Option Token} (traces : buffer.Traces text)
    (sound : buffer.Sound text) (advanced : buffer.advance? = some (token?, after)) :
    after.Traces text := by
  obtain ⟨found, next, filled, sound', _⟩ := sound.fill? buffer.position
  have traces' := (traces.fill? sound filled).1
  rw [TokenBuffer.advance?, filled] at advanced
  cases found with
  | none =>
    cases advanced
    exact traces'
  | some token =>
    cases advanced
    exact ⟨traces'.along, traces'.ended⟩

end Traces

end TokenBuffer

namespace BufferSession

variable {session after : BufferSession}

/-- Nothing that is done with a buffer makes it lose its way. -/
theorem step?_traces {step : BufferStep} (sound : session.Sound text)
    (traces : session.buffer.Traces text) (stepped : session.step? step = some after) :
    after.buffer.Traces text := by
  cases step with
  | setMode mode =>
    cases stepped
    exact ⟨traces.along, traces.ended⟩
  | peek ahead =>
    obtain ⟨⟨token?, buffer⟩, peeked, rfl⟩ := Option.map_eq_some_iff.mp stepped
    exact (traces.peek? sound.buffer peeked).1
  | advance =>
    obtain ⟨⟨token?, buffer⟩, advanced, rfl⟩ := Option.map_eq_some_iff.mp stepped
    exact traces.advance? sound.buffer advanced
  | takenSince start =>
    obtain ⟨_, _, rfl⟩ := Option.map_eq_some_iff.mp stepped
    exact traces
  | checkpoint =>
    cases stepped
    exact traces
  | rewind newer =>
    unfold step? at stepped
    dsimp only at stepped
    split at stepped
    · cases stepped
      exact traces
    · cases stepped
      exact ⟨traces.along, traces.ended⟩

theorem run?_traces {steps : List BufferStep} (sound : session.Sound text)
    (traces : session.buffer.Traces text) (run : session.run? steps = some after) :
    after.buffer.Traces text := by
  induction steps generalizing session with
  | nil =>
    cases run
    exact traces
  | cons step steps ih =>
    obtain ⟨next, stepped, sound'⟩ := sound.step? step
    rw [run?, List.foldlM_cons, stepped] at run
    exact ih sound' (step?_traces sound traces stepped) run

end BufferSession

end OpenCLTree

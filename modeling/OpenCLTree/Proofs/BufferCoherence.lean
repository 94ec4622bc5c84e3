import OpenCLTree.Proofs.Lexical.Onward
import OpenCLTree.Proofs.Lexical.TokenBuffer

/-!
A token buffer holds back nothing and invents nothing. Whatever has been done with it, it shows the
tokens that a new lexer reads in its mode behind the token that was passed last.
-/

namespace OpenCLTree

variable {text : List Char}

namespace TokenBuffer

variable {buffer after one two : TokenBuffer} {index count ahead : Nat}

/-- Whether a buffered token is what a mode reads. -/
def Holds (mode : LexMode) (buffered : BufferedToken) : Prop :=
  buffered.mode = mode ∨ buffered.token.kind.dependsOnMode = false

/-- Whether each token of a buffer is what a new lexer reads first, in the mode of the token, behind
the token before it; and the lexer of the buffer goes on behind the last one. -/
structure Coherent (text : List Char) (buffer : TokenBuffer) : Prop where
  sound : buffer.Sound text
  read : ∀ index buffered, buffer.tokens[index]? = some buffered →
    ∃ later, Lexer.tokensFrom? text buffered.mode (buffer.endBefore index) =
      some (buffered.token :: later)
  onward : buffer.lexer.Continues text (buffer.endBefore buffer.tokens.length)
  ended : buffer.exhausted = true → ∀ mode,
    Lexer.tokensFrom? text mode (buffer.endBefore buffer.tokens.length) = some []

theorem ofText_coherent (text : List Char) : (ofText text).Coherent text where
  sound := ofText_sound text
  read _ _ here := nomatch here
  onward := Lexer.Continues.ofText text
  ended := nofun

theorem getElem?_of_front {first whole : List BufferedToken} {buffered : BufferedToken}
    (front : first <+: whole) (here : first[index]? = some buffered) : whole[index]? = some buffered := by
  obtain ⟨within, rfl⟩ := List.getElem?_eq_some_iff.mp here
  exact List.prefix_iff_getElem?.mp front index within

/-- Where a token begins does not depend on the tokens after it. -/
theorem endBefore_of_front (front : one.tokens <+: two.tokens) (within : index ≤ one.tokens.length) :
    two.endBefore index = one.endBefore index := by
  cases index with
  | zero => rfl
  | succ index =>
    obtain ⟨back, same⟩ := front
    rw [endBefore, endBefore, ← same, List.getElem?_append_left within]

namespace Coherent

theorem setMode (coherent : buffer.Coherent text) (mode : LexMode) : (buffer.setMode mode).Coherent text :=
  ⟨coherent.sound.setMode mode, coherent.read, coherent.onward, coherent.ended⟩

/-- A buffer whose mode does not read a token as it was read goes back to the start of it. -/
theorem revalidate? (coherent : buffer.Coherent text) (ahead : buffer.position ≤ index) :
    ∃ after, buffer.revalidate? index = some after ∧ after.Coherent text ∧
      after.tokens <+: buffer.tokens ∧ after.position = buffer.position ∧ after.mode = buffer.mode ∧
      ∀ buffered, after.tokens[index]? = some buffered → Holds after.mode buffered := by
  obtain ⟨after, valid, sound, same⟩ := coherent.sound.revalidate? ahead
  refine ⟨after, valid, ?_⟩
  unfold TokenBuffer.revalidate? at valid
  cases here : buffer.tokens[index]? with
  | none =>
    simp only [here, Option.some.injEq] at valid
    subst valid
    exact ⟨coherent, List.prefix_rfl, rfl, rfl, fun _ there => nomatch here.symm.trans there⟩
  | some buffered =>
    simp only [here] at valid
    split at valid
    · rename_i holds
      cases valid
      exact ⟨coherent, List.prefix_rfl, rfl, rfl, fun _ there =>
        Option.some.inj (here.symm.trans there) ▸ holds⟩
    · -- The lexer starts over in front of the token, where it was before it read the token.
      obtain ⟨lexer, there, rfl⟩ := Option.map_eq_some_iff.mp valid
      have front : buffer.tokens.take index <+: buffer.tokens := List.take_prefix _ _
      have length : (buffer.tokens.take index).length = index :=
        List.length_take_of_le (Nat.le_of_lt (List.getElem?_eq_some_iff.mp here).1)
      obtain ⟨later, read⟩ := coherent.read index buffered here
      refine ⟨⟨sound, fun other earlier inside => ?_, ?_, nofun⟩, front, rfl, rfl, fun _ inside => ?_⟩
      · have within := Nat.le_of_lt (List.getElem?_eq_some_iff.mp inside).1
        rw [← endBefore_of_front front within]
        exact coherent.read other earlier (getElem?_of_front front inside)
      · rw [← endBefore_of_front front (Nat.le_refl _), length]
        exact Lexer.continues_of_reset? read coherent.sound.lexer there
      · have beyond := (List.getElem?_eq_some_iff.mp inside).1
        rw [length] at beyond
        exact absurd beyond (Nat.lt_irrefl _)

/-- Going over all tokens up to one that is asked for. -/
theorem revalidate?_range (coherent : buffer.Coherent text) {start : Nat}
    (ahead : buffer.position ≤ start) (count : Nat) :
    ∃ after, (List.range' start count).foldlM TokenBuffer.revalidate? buffer = some after ∧
      after.Coherent text ∧ after.tokens <+: buffer.tokens ∧ after.position = buffer.position ∧
      after.mode = buffer.mode ∧ ∀ index buffered, start ≤ index → index < start + count →
        after.tokens[index]? = some buffered → Holds after.mode buffered := by
  induction count generalizing buffer start with
  | zero => exact ⟨buffer, rfl, coherent, List.prefix_rfl, rfl, rfl, fun _ _ _ _ => by omega⟩
  | succ count ih =>
    obtain ⟨next, valid, coherent', front, position, mode, holds⟩ := coherent.revalidate? ahead
    have ahead' : next.position ≤ start + 1 := by omega
    obtain ⟨after, rest, coherent'', front', position', mode', holds'⟩ := ih coherent' ahead'
    refine ⟨after, ?_, coherent'', front'.trans front, position'.trans position, mode'.trans mode, ?_⟩
    · rw [List.range'_succ, List.foldlM_cons, valid]
      exact rest
    · intro index buffered from_ upto here
      rcases Nat.eq_or_lt_of_le from_ with rfl | later
      · rw [mode']
        exact holds buffered (getElem?_of_front front' here)
      · exact holds' index buffered later (by omega) here

/-- A token that is read is put behind the others. -/
theorem push {token : Token} {lexer : Lexer} (coherent : buffer.Coherent text)
    (goesOn : buffer.exhausted = false)
    (read : (buffer.lexer.turned buffer.mode).next = (some token, lexer)) :
    TokenBuffer.Coherent text
      { buffer with lexer, tokens := buffer.tokens ++ [⟨token, buffer.mode⟩] } := by
  obtain ⟨onward, later, first, _⟩ := coherent.onward.next read
  have front : buffer.tokens <+: buffer.tokens ++ [⟨token, buffer.mode⟩] := List.prefix_append _ _
  have cut := (Lexer.next_stands (coherent.sound.lexer.turned buffer.mode)).2
  rw [read] at cut
  refine ⟨⟨onward.stands, ?_, ?_⟩, fun index buffered here => ?_, ?_, ?_⟩
  · exact List.forall_mem_append.mpr
      ⟨coherent.sound.tokens, List.forall_mem_singleton.mpr (cut token rfl)⟩
  · exact Nat.le_trans coherent.sound.position front.length_le
  · rcases Nat.lt_or_ge index buffer.tokens.length with within | beyond
    · rw [endBefore_of_front front (Nat.le_of_lt within)]
      rw [List.getElem?_append_left within] at here
      exact coherent.read index buffered here
    · rw [List.getElem?_append_right beyond, List.getElem?_singleton] at here
      split at here
      · cases here
        obtain rfl : index = buffer.tokens.length := by omega
        rw [endBefore_of_front front (Nat.le_refl _)]
        exact ⟨later, first⟩
      · cases here
  · simpa [endBefore] using onward
  · exact fun exhausted => absurd (goesOn.symm.trans exhausted) Bool.false_ne_true

end Coherent

/-- Whether a buffer has read some more tokens, all in its mode. -/
structure Grown (text : List Char) (before after : TokenBuffer) : Prop where
  coherent : after.Coherent text
  tokens : before.tokens <+: after.tokens
  position : after.position = before.position
  mode : after.mode = before.mode
  read : ∀ index buffered, before.tokens.length ≤ index → after.tokens[index]? = some buffered →
    buffered.mode = before.mode

namespace Coherent

theorem grown (coherent : buffer.Coherent text) : Grown text buffer buffer :=
  ⟨coherent, List.prefix_rfl, rfl, rfl, fun _ _ beyond here =>
    absurd (List.getElem?_eq_some_iff.mp here).1 (Nat.not_lt_of_le beyond)⟩

theorem readMore? (coherent : buffer.Coherent text) (count : Nat) :
    ∃ after, buffer.readMore? count = some after ∧ Grown text buffer after ∧
      (after.exhausted = true ∨ buffer.tokens.length + count ≤ after.tokens.length) := by
  induction count generalizing buffer with
  | zero => exact ⟨buffer, rfl, coherent.grown, .inr (Nat.le_refl _)⟩
  | succ count ih =>
    unfold TokenBuffer.readMore?
    split
    · rename_i exhausted
      exact ⟨buffer, rfl, coherent.grown, .inl exhausted⟩
    rename_i goesOn
    have next := Lexer.cutNext?_eq (coherent.sound.lexer.turned buffer.mode)
    rw [Lexer.turned] at next
    rw [next]
    cases read : (buffer.lexer.turned buffer.mode).next with
    | mk token? lexer =>
      rw [Lexer.turned] at read
      rw [read]
      cases token? with
      | none =>
        obtain ⟨onward, ended⟩ := coherent.onward.ended read
        have same : TokenBuffer.Coherent text { buffer with lexer, exhausted := true } :=
          ⟨⟨onward.stands, coherent.sound.tokens, coherent.sound.position⟩, coherent.read, onward,
            fun _ => ended⟩
        exact ⟨_, rfl, ⟨same, List.prefix_rfl, rfl, rfl, coherent.grown.read⟩, .inl rfl⟩
      | some token =>
        have pushed := coherent.push (Bool.eq_false_iff.mpr goesOn) read
        obtain ⟨after, rest, grown, enough⟩ := ih pushed
        have front : buffer.tokens <+: buffer.tokens ++ [⟨token, buffer.mode⟩] := List.prefix_append _ _
        refine ⟨after, rest, ⟨grown.coherent, front.trans grown.tokens, grown.position, grown.mode, ?_⟩, ?_⟩
        · intro index buffered beyond here
          rcases Nat.eq_or_lt_of_le beyond with rfl | later
          · have pushed := getElem?_of_front grown.tokens
              (List.getElem?_concat_length (l := buffer.tokens) (a := ⟨token, buffer.mode⟩))
            rw [← Option.some.inj (pushed.symm.trans here)]
          · exact grown.read index buffered (by rwa [List.length_append, List.length_singleton]) here
        · rw [List.length_append, List.length_singleton] at enough
          exact enough.imp_right fun enough => by omega

theorem fill? (coherent : buffer.Coherent text) (index : Nat) :
    ∃ after, buffer.fill? index = some ((after.tokens[index]?).map (·.token), after) ∧
      Grown text buffer after ∧ (after.exhausted = true ∨ index < after.tokens.length) := by
  obtain ⟨after, read, grown, enough⟩ := coherent.readMore? (index + 1 - buffer.tokens.length)
  refine ⟨after, ?_, grown, enough.imp_right fun enough => by omega⟩
  rw [TokenBuffer.fill?, read]
  rfl

theorem read_in (coherent : buffer.Coherent text) {buffered : BufferedToken} {mode : LexMode}
    (here : buffer.tokens[index]? = some buffered) (holds : Holds mode buffered) :
    ∃ later, Lexer.tokensFrom? text mode (buffer.endBefore index) = some (buffered.token :: later) ∧
      Lexer.tokensFrom? text mode (buffer.endBefore (index + 1)) = some later := by
  obtain ⟨later, read⟩ := coherent.read index buffered here
  have inMode : ∃ later, Lexer.tokensFrom? text mode (buffer.endBefore index) =
      some (buffered.token :: later) := by
    rcases holds with rfl | either
    · exact ⟨later, read⟩
    · exact Lexer.tokensFrom?_turned read either mode
  obtain ⟨later, read⟩ := inMode
  refine ⟨later, read, ?_⟩
  rw [endBefore, here]
  exact Lexer.tokensFrom?_tail read

/-- Tokens of a buffer that a mode reads as they are, up to one that is asked for, are those that a
new lexer reads. -/
theorem window (coherent : buffer.Coherent text) {start : Nat} {mode : LexMode}
    (within : start ≤ buffer.tokens.length)
    (holds : ∀ index buffered, start ≤ index → index ≤ start + ahead →
      buffer.tokens[index]? = some buffered → Holds mode buffered)
    (enough : buffer.exhausted = true ∨ start + ahead < buffer.tokens.length) :
    ∃ tokens, Lexer.tokensFrom? text mode (buffer.endBefore start) = some tokens ∧
      tokens[ahead]? = (buffer.tokens[start + ahead]?).map (·.token) := by
  induction ahead generalizing start with
  | zero =>
    cases here : buffer.tokens[start]? with
    | none =>
      have beyond := List.getElem?_eq_none_iff.mp here
      obtain rfl : start = buffer.tokens.length := Nat.le_antisymm within beyond
      have exhausted := enough.resolve_right (Nat.lt_irrefl _)
      exact ⟨[], coherent.ended exhausted mode, by simp⟩
    | some buffered =>
      obtain ⟨later, read, _⟩ := coherent.read_in here
        (holds start buffered (Nat.le_refl _) (Nat.le_refl _) here)
      exact ⟨buffered.token :: later, read, rfl⟩
  | succ ahead ih =>
    cases here : buffer.tokens[start]? with
    | none =>
      have beyond := List.getElem?_eq_none_iff.mp here
      obtain rfl : start = buffer.tokens.length := Nat.le_antisymm within beyond
      have exhausted := enough.resolve_right (by omega)
      exact ⟨[], coherent.ended exhausted mode, by simp⟩
    | some buffered =>
      obtain ⟨later, read, tail⟩ := coherent.read_in here
        (holds start buffered (Nat.le_refl _) (Nat.le_add_right _ _) here)
      have next : start + 1 ≤ buffer.tokens.length := (List.getElem?_eq_some_iff.mp here).1
      -- What a new lexer reads behind the first token is the rest of what it reads in front of it.
      obtain ⟨tokens, read', same⟩ := ih next
        (fun index buffered from_ upto => holds index buffered (by omega) (by omega))
        (enough.imp_right fun enough => by omega)
      obtain rfl := Option.some.inj (tail.symm.trans read')
      refine ⟨buffered.token :: later, read, ?_⟩
      rw [List.getElem?_cons_succ, same, Nat.add_right_comm]
      rfl

end Coherent

/-- Whether a buffer has passed the same tokens as another, in the same mode. -/
structure Keeps (text : List Char) (before after : TokenBuffer) : Prop where
  coherent : after.Coherent text
  position : after.position = before.position
  mode : after.mode = before.mode
  passed : after.tokens.take before.position = before.tokens.take before.position

theorem take_of_front {first whole : List BufferedToken} (front : first <+: whole)
    (within : index ≤ first.length) : whole.take index = first.take index := by
  obtain ⟨back, rfl⟩ := front
  exact List.take_append_of_le_length within

theorem Grown.keeps (grown : Grown text buffer after) (within : buffer.position ≤ buffer.tokens.length) :
    Keeps text buffer after :=
  ⟨grown.coherent, grown.position, grown.mode, take_of_front grown.tokens within⟩

namespace Coherent

/-- A peek shows what a new lexer reads. Up to the token that it shows, the buffer then holds what the
mode reads. -/
theorem peek? (coherent : buffer.Coherent text) (ahead : Nat) :
    ∃ tokens after,
      Lexer.tokensFrom? text buffer.mode (buffer.endBefore buffer.position) = some tokens ∧
      buffer.peek? ahead = some (tokens[ahead]?, after) ∧ Keeps text buffer after ∧
      (∀ index ≤ ahead, tokens[index]? = (after.tokens[after.position + index]?).map (·.token)) ∧
      (after.exhausted = true ∨ after.position + ahead < after.tokens.length) := by
  obtain ⟨valid, revalidated, coherent', front, position, mode, holds⟩ :=
    coherent.revalidate?_range (Nat.le_refl buffer.position) (ahead + 1)
  obtain ⟨after, filled, grown, enough⟩ := coherent'.fill? (valid.position + ahead)
  have within : buffer.position ≤ valid.tokens.length := position ▸ coherent'.sound.position
  have within' : buffer.position ≤ after.tokens.length :=
    Nat.le_trans within grown.tokens.length_le
  have holds' : ∀ index buffered, buffer.position ≤ index → index ≤ buffer.position + ahead →
      after.tokens[index]? = some buffered → Holds buffer.mode buffered := by
    intro index buffered from_ upto here
    rcases Nat.lt_or_ge index valid.tokens.length with old | new
    · obtain ⟨back, same⟩ := grown.tokens
      rw [← same, List.getElem?_append_left old] at here
      rw [← mode]
      exact holds index buffered from_ (by omega) here
    · exact .inl ((grown.read index buffered new here).trans mode)
  rw [position] at enough
  have shown (nearer : Nat) (near : nearer ≤ ahead) :=
    grown.coherent.window within' (fun index buffered from_ upto => holds' index buffered from_ (by omega))
      (enough.imp_right fun enough => Nat.lt_of_le_of_lt (Nat.add_le_add_left near _) enough)
  obtain ⟨tokens, read, last⟩ := shown ahead (Nat.le_refl _)
  have place : after.endBefore buffer.position = buffer.endBefore buffer.position :=
    (endBefore_of_front grown.tokens within).trans (endBefore_of_front front within).symm
  have keeps : Keeps text buffer after :=
    ⟨grown.coherent, grown.position.trans position, grown.mode.trans mode,
      (take_of_front grown.tokens within).trans (take_of_front front within).symm⟩
  refine ⟨tokens, after, place ▸ read, ?_, keeps, fun nearer near => ?_, ?_⟩
  · rw [TokenBuffer.peek?, revalidated, last, ← position]
    exact filled
  · obtain ⟨tokens', read', here⟩ := shown nearer near
    rw [keeps.position, Option.some.inj (read.symm.trans read')]
    exact here
  · rwa [keeps.position]

end Coherent

theorem fill?_of_enough (enough : buffer.exhausted = true ∨ index < buffer.tokens.length) :
    buffer.fill? index = some ((buffer.tokens[index]?).map (·.token), buffer) := by
  have read : buffer.readMore? (index + 1 - buffer.tokens.length) = some buffer := by
    cases count : index + 1 - buffer.tokens.length with
    | zero => rfl
    | succ count =>
      have exhausted := enough.resolve_right (by omega)
      rw [readMore?, if_pos exhausted]
  rw [fill?, read]
  rfl

/-- A token that has been read is passed as it is, and is the last one that was passed. -/
theorem advance?_of_enough (enough : buffer.exhausted = true ∨ buffer.position < buffer.tokens.length)
    (within : buffer.position ≤ buffer.tokens.length) :
    ∃ passed, buffer.advance? = some ((buffer.tokens[buffer.position]?).map (·.token), passed) ∧
      passed.takenSince? buffer.position =
        some ((buffer.tokens[buffer.position]?).map (·.token)).toList := by
  unfold advance?
  rw [fill?_of_enough enough]
  cases here : buffer.tokens[buffer.position]? with
  | none =>
    refine ⟨buffer, rfl, ?_⟩
    rw [takenSince?, if_pos within, Nat.min_self, List.drop_take_self]
    rfl
  | some buffered =>
    refine ⟨{ buffer with position := buffer.position + 1 }, rfl, ?_⟩
    have next : buffer.position + 1 ≤ buffer.tokens.length := (List.getElem?_eq_some_iff.mp here).1
    have length : (buffer.tokens.take buffer.position).length = buffer.position :=
      List.length_take_of_le within
    rw [takenSince?, if_pos next, Nat.min_eq_left (Nat.le_succ _), List.take_add_one, here,
      List.drop_left' length]
    rfl

namespace Coherent

/-- What is passed is the token at the position, which is read first if it has not been yet. -/
theorem advance? (coherent : buffer.Coherent text) :
    ∃ token? after, buffer.advance? =
        some (token?, { after with position := after.position + token?.toList.length }) ∧
      Keeps text buffer after ∧ (after.tokens[after.position]?).map (·.token) = token? := by
  obtain ⟨after, filled, grown, _⟩ := coherent.fill? buffer.position
  have keeps := grown.keeps coherent.sound.position
  refine ⟨(after.tokens[buffer.position]?).map (·.token), after, ?_, keeps, ?_⟩
  · rw [TokenBuffer.advance?, filled]
    cases after.tokens[buffer.position]? <;> rfl
  · rw [keeps.position]

end Coherent

end TokenBuffer

/-- What has become of a source so far: the tokens that were passed, the mode, and both as they were
at each checkpoint that has not been passed by a rewind, the latest first. -/
structure Passage where
  passed : List Token
  mode : LexMode
  marks : List (List Token × LexMode)

namespace Passage

def start : Passage :=
  ⟨[], .normal, []⟩

/-- Where the last token that was passed ends. -/
def place (passage : Passage) : Nat :=
  passage.passed.getLast?.elim 0 (·.span.stop)

/-- What a step does, where `token?` is passed if the step passes a token. -/
def step (passage : Passage) (token? : Option Token) : BufferStep → Passage
  | .setMode mode => { passage with mode }
  | .peek _ => passage
  | .advance => { passage with passed := passage.passed ++ token?.toList }
  | .takenSince _ => passage
  | .checkpoint => { passage with marks := (passage.passed, passage.mode) :: passage.marks }
  | .rewind newer =>
    match passage.marks.drop newer with
    | [] => passage
    | (passed, mode) :: older => ⟨passed, mode, (passed, mode) :: older⟩

end Passage

namespace BufferSession

/-- The token that a session would pass. -/
def current? (session : BufferSession) : Option Token :=
  session.buffer.advance?.bind (·.1)

/-- A step of a session, and what becomes of the source by it. -/
def follow? (state : BufferSession × Passage) (step : BufferStep) : Option (BufferSession × Passage) :=
  (state.1.step? step).map fun session => (session, state.2.step state.1.current? step)

/-- Whether a session is where a passage says. -/
structure Follows (text : List Char) (session : BufferSession) (passage : Passage) : Prop where
  coherent : session.buffer.Coherent text
  checkpoints : (session.buffer.position :: session.checkpoints.map (·.position)).Pairwise (· ≥ ·)
  mode : session.buffer.mode = passage.mode
  passed : (session.buffer.tokens.take session.buffer.position).map (·.token) = passage.passed
  marks : session.checkpoints.map (fun target =>
    ((session.buffer.tokens.take target.position).map (·.token), target.mode)) = passage.marks

theorem ofText_follows (text : List Char) : (ofText text).Follows text .start where
  coherent := TokenBuffer.ofText_coherent text
  checkpoints := List.pairwise_singleton _ _
  mode := rfl
  passed := rfl
  marks := rfl

namespace Follows

variable {session : BufferSession} {passage : Passage}

theorem place_eq (follows : session.Follows text passage) :
    session.buffer.endBefore session.buffer.position = passage.place := by
  rw [Passage.place, ← follows.passed]
  cases count : session.buffer.position with
  | zero => rfl
  | succ index =>
    have within : index < session.buffer.tokens.length := by
      have position := follows.coherent.sound.position
      omega
    have last : (session.buffer.tokens.take (index + 1)).map (·.token) =
        (session.buffer.tokens.take index).map (·.token) ++ [session.buffer.tokens[index].token] := by
      rw [List.take_add_one, List.getElem?_eq_getElem within, List.map_append]
      rfl
    rw [TokenBuffer.endBefore, List.getElem?_eq_getElem within, last, List.getLast?_concat]
    rfl

theorem position_eq (follows : session.Follows text passage) :
    session.buffer.position = passage.passed.length := by
  rw [← follows.passed, List.length_map, List.length_take_of_le follows.coherent.sound.position]

/-- A buffer that has passed the same tokens is where the passage says, in its own mode. -/
theorem withBuffer (follows : session.Follows text passage) {buffer : TokenBuffer}
    (keeps : TokenBuffer.Keeps text session.buffer buffer) :
    ({ session with buffer } : BufferSession).Follows text passage := by
  refine ⟨keeps.coherent, ?_, keeps.mode.trans follows.mode, ?_, ?_⟩
  · rw [keeps.position]
    exact follows.checkpoints
  · rw [keeps.position, keeps.passed]
    exact follows.passed
  · rw [← follows.marks]
    refine List.map_congr_left fun target member => ?_
    have before := (List.pairwise_cons.mp follows.checkpoints).1 _ (List.mem_map_of_mem member)
    have same := congrArg (List.take target.position) keeps.passed
    rw [List.take_take, List.take_take, Nat.min_eq_left before] at same
    rw [same]

/-- Passing the token at the position. -/
theorem pass (follows : session.Follows text passage) {token : Token}
    (here : (session.buffer.tokens[session.buffer.position]?).map (·.token) = some token) :
    ({ session with buffer := { session.buffer with position := session.buffer.position + 1 } } :
      BufferSession).Follows text { passage with passed := passage.passed ++ [token] } := by
  obtain ⟨buffered, listed, rfl⟩ := Option.map_eq_some_iff.mp here
  have coherent := follows.coherent
  have within := (List.getElem?_eq_some_iff.mp listed).1
  refine ⟨⟨⟨coherent.sound.lexer, coherent.sound.tokens, within⟩, coherent.read, coherent.onward,
    coherent.ended⟩, ?_, follows.mode, ?_, follows.marks⟩
  · obtain ⟨before, pairwise⟩ := List.pairwise_cons.mp follows.checkpoints
    exact List.pairwise_cons.mpr ⟨fun place member => Nat.le_succ_of_le (before place member), pairwise⟩
  · rw [← follows.passed, List.take_add_one, listed, List.map_append]
    rfl

theorem advance (follows : session.Follows text passage) :
    ∃ after, session.step? .advance = some after ∧
      after.Follows text (passage.step session.current? .advance) := by
  obtain ⟨token?, kept, advanced, keeps, here⟩ := follows.coherent.advance?
  have answer : session.current? = token? := by
    rw [current?, advanced]
    rfl
  refine ⟨{ session with buffer := { kept with position := kept.position + token?.toList.length } }, ?_, ?_⟩
  · rw [step?, advanced]
    rfl
  rw [answer]
  have follows' := follows.withBuffer keeps
  cases token? with
  | none =>
    rw [Passage.step, Option.toList_none, List.append_nil]
    exact follows'
  | some token => exact follows'.pass here

theorem rewind (follows : session.Follows text passage) (newer : Nat) :
    ∃ after, session.step? (.rewind newer) = some after ∧
      after.Follows text (passage.step session.current? (.rewind newer)) := by
  have marks := congrArg (List.drop newer) follows.marks
  rw [← List.map_drop] at marks
  unfold step?
  rw [Passage.step, ← marks]
  dsimp only
  cases dropped : session.checkpoints.drop newer with
  | nil => exact ⟨session, rfl, follows⟩
  | cons target older =>
    obtain ⟨before, pairwise⟩ := List.pairwise_cons.mp follows.checkpoints
    have ordered := pairwise.sublist (List.drop_sublist newer _)
    rw [← List.map_drop, dropped, List.map_cons] at ordered
    have passed : target.position ≤ session.buffer.position := by
      refine before _ (List.mem_map_of_mem ?_)
      exact List.mem_of_mem_drop (dropped ▸ List.mem_cons_self)
    have coherent := follows.coherent
    refine ⟨_, rfl, ⟨⟨coherent.sound.lexer, coherent.sound.tokens, ?_⟩, coherent.read, coherent.onward,
      coherent.ended⟩, ?_, rfl, rfl, rfl⟩
    · exact Nat.le_trans passed coherent.sound.position
    · refine List.pairwise_cons.mpr ⟨?_, ordered⟩
      exact List.forall_mem_cons.mpr ⟨Nat.le_refl _, (List.pairwise_cons.mp ordered).1⟩

/-- Whatever is done next, the session stays where the passage says. -/
theorem follow? (follows : session.Follows text passage) (step : BufferStep) :
    ∃ after, session.step? step = some after ∧ after.Follows text (passage.step session.current? step) := by
  cases step with
  | setMode mode =>
    exact ⟨_, rfl, follows.coherent.setMode mode, follows.checkpoints, rfl, follows.passed, follows.marks⟩
  | peek ahead =>
    obtain ⟨tokens, after, _, peeked, keeps, _⟩ := follows.coherent.peek? ahead
    refine ⟨{ session with buffer := after }, ?_, follows.withBuffer keeps⟩
    rw [step?, peeked]
    rfl
  | advance => exact follows.advance
  | takenSince start =>
    obtain ⟨taken, cut⟩ := follows.coherent.sound.takenSince? start
    refine ⟨session, ?_, follows⟩
    rw [step?, cut]
    rfl
  | checkpoint =>
    refine ⟨_, rfl, follows.coherent, ?_, follows.mode, follows.passed, ?_⟩
    · have before := (List.pairwise_cons.mp follows.checkpoints).1
      exact List.pairwise_cons.mpr
        ⟨List.forall_mem_cons.mpr ⟨Nat.le_refl _, before⟩, follows.checkpoints⟩
    · rw [List.map_cons, follows.marks, follows.passed, follows.mode]
      rfl
  | rewind newer => exact follows.rewind newer

theorem follow?_all (follows : session.Follows text passage) (steps : List BufferStep) :
    ∃ after passage', session.run? steps = some after ∧
      steps.foldlM BufferSession.follow? (session, passage) = some (after, passage') ∧
      after.Follows text passage' := by
  induction steps generalizing session passage with
  | nil => exact ⟨session, passage, rfl, rfl, follows⟩
  | cons step steps ih =>
    obtain ⟨next, stepped, follows'⟩ := follows.follow? step
    obtain ⟨after, passage', run, followed, follows''⟩ := ih follows'
    refine ⟨after, passage', ?_, ?_, follows''⟩
    · rw [run?, List.foldlM_cons, stepped]
      exact run
    · rw [List.foldlM_cons, BufferSession.follow?, stepped]
      exact followed

end Follows

/-- Whether what can be seen of a session is what its passage and new lexers tell. -/
structure Agrees (text : List Char) (session : BufferSession) (passage : Passage) : Prop where
  mode : session.buffer.mode = passage.mode
  taken : session.buffer.takenSince? 0 = some passage.passed
  within : session.buffer.position ≤ session.buffer.tokens.length
  peek : ∃ tokens, Lexer.tokensFrom? text passage.mode passage.place = some tokens ∧
    ∀ ahead, ∃ after, session.buffer.peek? ahead = some (tokens[ahead]?, after)
  advance : ∃ token? shown passed, session.buffer.peek? 0 = some (token?, shown) ∧
    shown.advance? = some (token?, passed) ∧
    passed.takenSince? session.buffer.position = some token?.toList

/-- What a peek at the current token shows is what is passed next. -/
theorem Follows.advance_peeked {session : BufferSession} {passage : Passage}
    (follows : session.Follows text passage) :
    ∃ token? shown passed, session.buffer.peek? 0 = some (token?, shown) ∧
      shown.advance? = some (token?, passed) ∧
      passed.takenSince? session.buffer.position = some token?.toList := by
  obtain ⟨tokens, shown, _, peeked, keeps, shows, enough⟩ := follows.coherent.peek? 0
  have here := shows 0 (Nat.le_refl 0)
  rw [Nat.add_zero] at here enough
  obtain ⟨passed, advanced, taken⟩ :=
    TokenBuffer.advance?_of_enough enough keeps.coherent.sound.position
  rw [← here] at advanced taken
  exact ⟨tokens[0]?, shown, passed, peeked, advanced, keeps.position ▸ taken⟩

theorem Follows.agrees {session : BufferSession} {passage : Passage}
    (follows : session.Follows text passage) : session.Agrees text passage where
  mode := follows.mode
  taken := by
    rw [TokenBuffer.takenSince?, if_pos follows.coherent.sound.position, Nat.zero_min, List.drop_zero,
      follows.passed]
  within := follows.coherent.sound.position
  peek := by
    obtain ⟨tokens, _, read, _⟩ := follows.coherent.peek? 0
    rw [follows.mode, follows.place_eq] at read
    refine ⟨tokens, read, fun ahead => ?_⟩
    obtain ⟨tokens', after, read', peeked, _⟩ := follows.coherent.peek? ahead
    rw [follows.mode, follows.place_eq] at read'
    rw [Option.some.inj (read.symm.trans read')]
    exact ⟨after, peeked⟩
  advance := follows.advance_peeked

/-- Whatever is done with a source, a session shows what a new lexer reads, in the mode of the
session, behind the token that was passed last; and it passes what it has shown. -/
theorem run?_agrees (text : List Char) (steps : List BufferStep) :
    ∃ session passage, (ofText text).run? steps = some session ∧
      steps.foldlM follow? (ofText text, Passage.start) = some (session, passage) ∧
      session.Agrees text passage := by
  obtain ⟨session, passage, run, followed, follows⟩ := (ofText_follows text).follow?_all steps
  exact ⟨session, passage, run, followed, follows.agrees⟩

end BufferSession

end OpenCLTree

import OpenCLTree.Proofs.LexicalModes
import OpenCLTree.Proofs.Lookahead

/-!
The grammar does not read the source as it goes: its cursor stands in a stream that was read once, in
normal mode. It is shown what the token buffer would show it.
-/

namespace OpenCLTree

namespace Token

/-- Where the token before the one with a number ends. -/
def stopBefore (tokens : List Token) : Nat → Nat
  | 0 => 0
  | place + 1 => (tokens[place]?).elim 0 (·.span.stop)

/-- What a mode makes of tokens that were read in normal mode. -/
def readIn (mode : LexMode) (tokens : List Token) : List Token :=
  match mode with
  | .normal => tokens
  | .suffix => fuse tokens

/-- A token of the grammar, where it stands in the source. -/
def locatedIn (source : String) (token : Token) : Token :=
  token.mapSpan (Span.placeIn (tokenize source).1 (byteLength source.toList))

end Token

namespace Lexer

variable {text : List Char} {source : String} {place : Nat} {tokens : List Token}

/-- Behind a token, suffix mode makes of what is left what it makes of the whole. -/
theorem tokensFrom?_readIn (read : tokensFrom? text .normal place = some tokens) (mode : LexMode) :
    tokensFrom? text mode place = some (Token.readIn mode tokens) := by
  cases mode with
  | normal => exact read
  | suffix =>
    obtain ⟨lexer, continues, normal, _, rfl⟩ := exists_continues read
    have fused := fuses normal
    rw [Fuses] at fused
    rw [continues.onward .suffix, fused]
    rfl

/-- Behind each of its tokens, the rest of a stream is what a new lexer reads. -/
theorem tokensFrom?_drop (within : place ≤ (tokenize source).1.length) :
    tokensFrom? source.toList .normal (Token.stopBefore (tokenize source).1 place) =
      some ((tokenize source).1.drop place) := by
  induction place with
  | zero => exact (Continues.ofText source.toList).onward .normal
  | succ place ih =>
    have read := ih (Nat.le_of_succ_le within)
    rw [List.drop_eq_getElem_cons within] at read
    rw [Token.stopBefore, List.getElem?_eq_getElem within]
    exact tokensFrom?_tail read

end Lexer

namespace Word

variable {tokens : List Token} {size place stop : Nat} {mode : LexMode} {token name leaf : Token}

/-- Whether the leaf that is read first behind a place reaches up to the place `stop`, and is the first
of what the mode makes of the tokens. -/
structure Leads (tokens : List Token) (size : Nat) (mode : LexMode) (place : Nat) (leaf : Token)
    (stop : Nat) : Prop where
  read : read? mode (ofTokensFrom place (tokens.drop place)) =
    some (leaf, ofTokensFrom stop (tokens.drop stop))
  span : leaf.span = ⟨place, stop⟩
  onward : place < stop
  within : stop ≤ tokens.length
  first : Token.readIn mode (tokens.drop place) =
    leaf.mapSpan (Span.placeIn tokens size) :: Token.readIn mode (tokens.drop stop)

theorem drop_of_getElem? (here : tokens[place]? = some token) :
    tokens.drop place = token :: tokens.drop (place + 1) := by
  obtain ⟨within, rfl⟩ := List.getElem?_eq_some_iff.mp here
  exact List.drop_eq_getElem_cons within

/-- A token by itself is read in normal mode, and in suffix mode if it makes no accessor. -/
theorem leads_alone (here : tokens[place]? = some token) (size : Nat)
    (alone : mode = .suffix → (tokens[place + 1]?).bind (accessorOf? place token) = none) :
    Leads tokens size mode place (token.mapSpan fun _ => ⟨place, place + 1⟩) (place + 1) := by
  have whole := drop_of_getElem? here
  refine ⟨?_, rfl, Nat.lt_succ_self place, (List.getElem?_eq_some_iff.mp here).1, ?_⟩
  · rw [whole, ofTokensFrom, List.head?_drop]
    cases mode with
    | normal => rfl
    | suffix =>
      rw [alone rfl]
      rfl
  · rw [whole, Node.locate_token here]
    cases mode with
    | normal => rfl
    | suffix =>
      refine Token.fuse_cons fun name next isDot isName selects => ?_
      rw [List.head?_drop] at next
      have none := alone rfl
      rw [next] at none
      exact accessorOf?_ne_none isDot isName selects none

/-- A dot and component names are read together in suffix mode. -/
theorem leads_joined (here : tokens[place]? = some token) (next : tokens[place + 1]? = some name)
    (size : Nat) (joined : accessorOf? place token name = some leaf) :
    Leads tokens size .suffix place leaf (place + 2) := by
  have whole := drop_of_getElem? here
  have whole' := drop_of_getElem? next
  have within := (List.getElem?_eq_some_iff.mp next).1
  refine ⟨?_, span_accessorOf? joined, Nat.lt_add_of_pos_right Nat.two_pos, within, ?_⟩
  · rw [whole, ofTokensFrom, List.head?_drop, next, Option.bind_some, joined, whole']
    rfl
  · obtain ⟨isDot, isName, selects, rfl⟩ := accessorOf?_eq_some joined
    have located : Span.placeIn tokens size ⟨place, place + 2⟩ = ⟨token.span.start, name.span.stop⟩ :=
      Span.locate_eq (Nat.lt_add_of_pos_right Nat.two_pos) here next
    rw [whole, whole', Token.readIn, Token.fuse_joined isDot isName selects, Token.mapSpan, located]
    rfl

/-- In the source a leaf ends where the last of its tokens does. -/
theorem Leads.stop_eq (leads : Leads tokens size mode place leaf stop) :
    (leaf.mapSpan (Span.placeIn tokens size)).span.stop = Token.stopBefore tokens stop := by
  cases stop with
  | zero => exact absurd leads.onward (Nat.not_lt_zero place)
  | succ last =>
    have atFirst := List.getElem?_eq_getElem (Nat.lt_of_lt_of_le leads.onward leads.within)
    have atLast := List.getElem?_eq_getElem leads.within
    have located : Span.placeIn tokens size ⟨place, last + 1⟩ = _ :=
      Span.locate_eq leads.onward atFirst atLast
    rw [Token.mapSpan, leads.span, located, Token.stopBefore, atLast]
    rfl

/-- Behind a place nothing is read, or what the mode makes of the tokens. -/
theorem exists_leads (tokens : List Token) (size : Nat) (mode : LexMode) (place : Nat) :
    (read? mode (ofTokensFrom place (tokens.drop place)) = none ∧
      Token.readIn mode (tokens.drop place) = []) ∨
    ∃ leaf stop, Leads tokens size mode place leaf stop := by
  cases here : tokens[place]? with
  | none =>
    rw [List.drop_of_length_le (List.getElem?_eq_none_iff.mp here)]
    cases mode <;> exact .inl ⟨rfl, rfl⟩
  | some token =>
    right
    cases joined : (tokens[place + 1]?).bind (accessorOf? place token) with
    | none => exact ⟨_, _, leads_alone here size fun _ => joined⟩
    | some accessor =>
      obtain ⟨name, next, accessed⟩ := Option.bind_eq_some_iff.mp joined
      cases mode with
      | normal => exact ⟨_, _, leads_alone here size nofun⟩
      | suffix => exact ⟨_, _, leads_joined here next size accessed⟩

/-- The words of a stream show what the mode makes of its tokens. -/
theorem peek?_readIn (tokens : List Token) (size : Nat) (mode : LexMode) (place ahead : Nat) :
    (peek? mode ahead (ofTokensFrom place (tokens.drop place))).map
      (·.mapSpan (Span.placeIn tokens size)) = (Token.readIn mode (tokens.drop place))[ahead]? := by
  induction ahead generalizing place with
  | zero =>
    rcases exists_leads tokens size mode place with ⟨none, nothing⟩ | ⟨leaf, stop, leads⟩
    · rw [peek?, none, nothing]
      rfl
    · rw [peek?, leads.read, leads.first]
      rfl
  | succ ahead ih =>
    rcases exists_leads tokens size mode place with ⟨none, nothing⟩ | ⟨leaf, stop, leads⟩
    · rw [peek?, none, nothing]
      rfl
    · rw [peek?, leads.read, leads.first]
      exact ih stop

end Word

namespace Cursor

variable {source : String} {cursor : Cursor}

/-- Where the token that was taken last ends in the source. -/
def stop (source : String) (cursor : Cursor) : Nat :=
  (cursor.taken.head?).elim 0 fun token => (token.locatedIn source).span.stop

/-- Whether a cursor stands between two tokens of the stream of a source. -/
structure Stands (source : String) (cursor : Cursor) : Prop where
  rest : cursor.rest = Word.ofTokensFrom cursor.place ((tokenize source).1.drop cursor.place)
  within : cursor.place ≤ (tokenize source).1.length
  stop : cursor.stop source = Token.stopBefore (tokenize source).1 cursor.place

/-- Whether a cursor shows what a new lexer reads behind the token that was taken last. -/
def Agrees (source : String) (cursor : Cursor) : Prop :=
  ∃ tokens, Lexer.tokensFrom? source.toList cursor.mode (cursor.stop source) = some tokens ∧
    ∀ ahead, (cursor.peek? ahead).map (·.locatedIn source) = tokens[ahead]?

theorem ofTokens_stands (source : String) : (ofTokens (tokenize source).1).Stands source :=
  ⟨rfl, Nat.zero_le _, rfl⟩

namespace Stands

theorem setMode (stands : cursor.Stands source) (mode : LexMode) : (cursor.setMode mode).Stands source :=
  ⟨stands.rest, stands.within, stands.stop⟩

/-- Whatever is taken, by a dot as a dot or with component names, the cursor then stands behind it. -/
theorem take (stands : cursor.Stands source) {mode : LexMode} {leaf : Token} {rest : List Word}
    (read : Word.read? mode cursor.rest = some (leaf, rest)) :
    ({ cursor with taken := leaf :: cursor.taken, rest } : Cursor).Stands source := by
  rw [stands.rest] at read
  rcases Word.exists_leads (tokenize source).1 (byteLength source.toList) mode cursor.place with
    ⟨none, _⟩ | ⟨leaf', stop, leads⟩
  · cases none.symm.trans read
  obtain ⟨rfl, rfl⟩ := Prod.mk.inj (Option.some.inj (leads.read.symm.trans read))
  obtain rfl : leaf'.span.stop = stop := congrArg Span.stop leads.span
  exact ⟨rfl, leads.within, leads.stop_eq⟩

/-- A cursor that stands in the stream of a source shows what a new lexer reads. -/
theorem agrees (stands : cursor.Stands source) : cursor.Agrees source := by
  refine ⟨Token.readIn cursor.mode ((tokenize source).1.drop cursor.place), ?_, fun ahead => ?_⟩
  · rw [stands.stop]
    exact Lexer.tokensFrom?_readIn (Lexer.tokensFrom?_drop stands.within) cursor.mode
  · rw [peek?, stands.rest]
    exact Word.peek?_readIn _ _ cursor.mode cursor.place ahead

end Stands

end Cursor

/-- Whatever the grammar reads, its cursor goes on standing in the stream. -/
theorem ReadsWith.stands {source : String} {remarks : Prop} {first last : GrammarState}
    {children : List Child} (reads : ReadsWith remarks first children last)
    (stands : first.cursor.Stands source) : last.cursor.Stands source := by
  induction reads with
  | nothing | declared | remarked => exact stands
  | join _ _ ihFront ihBack => exact ihBack (ihFront stands)
  | token read => exact stands.take read
  | node _ _ ih | duplicate _ ih | inScope _ ih | deeper _ ih => exact ih stands
  | recovered _ _ _ _ ihTaken ihSkipped => exact ihSkipped (ihTaken stands)

theorem GrammarState.Reachable.stands {source : String} {state : GrammarState}
    (reachable : GrammarState.Reachable (tokenize source).1 state) : state.cursor.Stands source := by
  induction reachable with
  | start => exact Cursor.ofTokens_stands source
  | behind _ reads ih => exact reads.stands ih
  | entered _ ih | deeper _ ih => exact ih

/-- A cursor in use like a token buffer, with the mode in which it was looked at last. -/
structure CursorSession where
  cursor : Cursor
  looked : LexMode
  checkpoints : List Cursor

namespace CursorSession

def ofTokens (tokens : List Token) : CursorSession :=
  ⟨.ofTokens tokens, .normal, []⟩

/-- What a step of a buffer is for a cursor: a token is taken as it was looked at, and a checkpoint is
the cursor itself. -/
def step (session : CursorSession) : BufferStep → CursorSession
  | .setMode mode => { session with cursor := session.cursor.setMode mode }
  | .peek _ => { session with looked := session.cursor.mode }
  | .advance =>
    match (session.cursor.setMode session.looked).advance? with
    | none => session
    | some (_, after) => { session with cursor := after.setMode session.cursor.mode }
  | .takenSince _ => session
  | .checkpoint => { session with checkpoints := session.cursor :: session.checkpoints }
  | .rewind newer =>
    match session.checkpoints.drop newer with
    | [] => session
    | target :: older => { session with cursor := target, checkpoints := target :: older }

def run (session : CursorSession) (steps : List BufferStep) : CursorSession :=
  steps.foldl step session

/-- Whether what can be seen of a session is what its passage and new lexers tell. -/
structure Agrees (source : String) (session : CursorSession) (passage : Passage) : Prop where
  mode : session.cursor.mode = passage.mode
  taken : session.cursor.taken.reverse.map (·.locatedIn source) = passage.passed
  peek : ∃ tokens, Lexer.tokensFrom? source.toList passage.mode passage.place = some tokens ∧
    ∀ ahead, (session.cursor.peek? ahead).map (·.locatedIn source) = tokens[ahead]?

/-- Whether a session is where a passage says. -/
structure Follows (source : String) (session : CursorSession) (passage : Passage) : Prop where
  stands : ∀ cursor ∈ session.cursor :: session.checkpoints, cursor.Stands source
  mode : session.cursor.mode = passage.mode
  taken : session.cursor.taken.reverse.map (·.locatedIn source) = passage.passed
  marks : session.checkpoints.map (fun target =>
    (target.taken.reverse.map (·.locatedIn source), target.mode)) = passage.marks

/-- The token that was looked at last. -/
def seen? (source : String) (session : CursorSession) : Option Token :=
  ((session.cursor.setMode session.looked).peek? 0).map (·.locatedIn source)

variable {source : String} {session : CursorSession} {passage : Passage}

theorem ofTokens_follows (source : String) : (ofTokens (tokenize source).1).Follows source .start :=
  ⟨List.forall_mem_singleton.mpr (Cursor.ofTokens_stands source), rfl, rfl, rfl⟩

namespace Follows

theorem place_eq (follows : session.Follows source passage) :
    session.cursor.stop source = passage.place := by
  rw [Passage.place, ← follows.taken, List.getLast?_map, List.getLast?_reverse, Cursor.stop]
  cases session.cursor.taken.head? <;> rfl

theorem agrees (follows : session.Follows source passage) : session.Agrees source passage := by
  obtain ⟨tokens, read, shows⟩ := (follows.stands _ List.mem_cons_self).agrees
  rw [follows.mode, follows.place_eq] at read
  exact ⟨follows.mode, follows.taken, tokens, read, shows⟩

/-- Taking a token as it was looked at. -/
theorem advance (follows : session.Follows source passage) :
    (session.step .advance).Follows source
      { passage with passed := passage.passed ++ (session.seen? source).toList } := by
  have stands := follows.stands _ List.mem_cons_self
  have before := (List.forall_mem_cons.mp follows.stands).2
  cases read : Word.read? session.looked session.cursor.rest with
  | none =>
    have seen : session.seen? source = none := by
      simp only [seen?, Cursor.setMode, Cursor.peek?, Word.peek?, read, Option.map_none]
    have same : session.step .advance = session := by
      simp only [step, Cursor.setMode, Cursor.advance?, read, Option.map_none]
    rw [seen, same, Option.toList_none, List.append_nil]
    exact follows
  | some found =>
    obtain ⟨leaf, rest⟩ := found
    have seen : session.seen? source = some (leaf.locatedIn source) := by
      simp only [seen?, Cursor.setMode, Cursor.peek?, Word.peek?, read, Option.map_some]
    have taken : session.step .advance = { session with
        cursor := { session.cursor with taken := leaf :: session.cursor.taken, rest } } := by
      simp only [step, Cursor.setMode, Cursor.advance?, read, Option.map_some]
    rw [seen, taken]
    refine ⟨List.forall_mem_cons.mpr ⟨stands.take read, before⟩, follows.mode, ?_, follows.marks⟩
    rw [← follows.taken, List.reverse_cons, List.map_append]
    rfl

/-- Going back to a checkpoint. -/
theorem rewind (follows : session.Follows source passage) (newer : Nat) (token? : Option Token) :
    (session.step (.rewind newer)).Follows source (passage.step token? (.rewind newer)) := by
  have before := (List.forall_mem_cons.mp follows.stands).2
  have marks := congrArg (List.drop newer) follows.marks
  rw [← List.map_drop] at marks
  rw [Passage.step, ← marks, step]
  cases dropped : session.checkpoints.drop newer with
  | nil => exact follows
  | cons target older =>
    have kept : ∀ cursor ∈ target :: older, cursor.Stands source := fun cursor member =>
      before cursor (List.mem_of_mem_drop (dropped ▸ member))
    exact ⟨List.forall_mem_cons.mpr ⟨kept _ List.mem_cons_self, kept⟩, rfl, rfl, rfl⟩

/-- Every step keeps a session where its passage says, if the token that it takes was looked at. -/
theorem step (follows : session.Follows source passage) (step : BufferStep) :
    (session.step step).Follows source (passage.step (session.seen? source) step) := by
  have stands := follows.stands _ List.mem_cons_self
  have before := (List.forall_mem_cons.mp follows.stands).2
  cases step with
  | setMode mode =>
    exact ⟨List.forall_mem_cons.mpr ⟨stands.setMode mode, before⟩, rfl, follows.taken, follows.marks⟩
  | peek => exact ⟨follows.stands, follows.mode, follows.taken, follows.marks⟩
  | takenSince => exact follows
  | advance => exact follows.advance
  | checkpoint =>
    refine ⟨List.forall_mem_cons.mpr ⟨stands, follows.stands⟩, follows.mode, follows.taken, ?_⟩
    exact congrArg₂ List.cons (Prod.ext follows.taken follows.mode) follows.marks
  | rewind newer => exact follows.rewind newer _

end Follows

end CursorSession

variable {source : String}

/-- Whether a buffer and a cursor have come to the same place, and were looked at in the same mode. -/
structure BufferSession.Matches (source : String) (session : BufferSession) (other : CursorSession)
    (passage : Passage) (looked : Bool) : Prop where
  buffer : session.Follows source.toList passage
  cursor : other.Follows source passage
  seen : looked = true → session.buffer.Shows (other.seen? source)

namespace BufferSession.Matches

variable {session : BufferSession} {other : CursorSession} {passage : Passage} {looked : Bool}
  {steps : List BufferStep}

/-- Looking at a token, both see what a new lexer reads. -/
theorem peek (together : session.Matches source other passage looked) (ahead : Nat) :
    ∃ after, session.step? (.peek ahead) = some after ∧
      after.Matches source (other.step (.peek ahead)) passage true := by
  obtain ⟨tokens, buffer, read, peeked, follows, shows⟩ := together.buffer.peek? ahead
  obtain ⟨tokens', read', shows'⟩ := together.cursor.agrees.peek
  obtain rfl := Option.some.inj (read.symm.trans read')
  refine ⟨{ session with buffer }, ?_, follows, together.cursor.step (.peek ahead), fun _ => ?_⟩
  · rw [BufferSession.step?, peeked]
    rfl
  · -- Whatever is peeked at, the current token is then buffered as the mode reads it.
    have seen : (other.step (.peek ahead)).seen? source = tokens[0]? := shows' 0
    rw [seen]
    exact shows

/-- Passing a token that was looked at, both pass the same. -/
theorem advance (together : session.Matches source other passage true) :
    ∃ after, session.step? .advance = some after ∧
      after.Matches source (other.step .advance) (passage.step session.current? .advance) false := by
  obtain ⟨after, stepped, follows⟩ := together.buffer.advance
  obtain ⟨passed, advanced⟩ := (together.seen rfl).advance? together.buffer.coherent.sound.position
  have current : session.current? = other.seen? source := by
    rw [BufferSession.current?, advanced]
    rfl
  exact ⟨after, stepped, follows, current ▸ together.cursor.step .advance,
    fun known => absurd known Bool.false_ne_true⟩

/-- A step takes both to the same place, unless it passes a token that was not looked at. -/
theorem step? (together : session.Matches source other passage looked) {step : BufferStep}
    (careful : BufferStep.careful looked (step :: steps) = true) :
    ∃ after looked', session.step? step = some after ∧
      after.Matches source (other.step step) (passage.step session.current? step) looked' ∧
      BufferStep.careful looked' steps = true := by
  have follows' := together.cursor.step step
  cases step with
  | setMode mode =>
    obtain ⟨after, stepped, follows⟩ := together.buffer.follow? (.setMode mode)
    cases stepped
    have seen (known : looked = true) := together.seen known
    exact ⟨_, looked, rfl, ⟨follows, follows', fun known => ⟨(seen known).here, (seen known).enough⟩⟩,
      careful⟩
  | peek ahead =>
    obtain ⟨after, stepped, together'⟩ := together.peek ahead
    exact ⟨after, true, stepped, together', careful⟩
  | advance =>
    obtain ⟨rfl, careful'⟩ := Bool.and_eq_true_iff.mp careful
    obtain ⟨after, stepped, together'⟩ := together.advance
    exact ⟨after, false, stepped, together', careful'⟩
  | takenSince start =>
    refine ⟨session, looked, ?_, together, careful⟩
    rw [BufferSession.step?, together.buffer.takenSince? start]
    rfl
  | checkpoint =>
    obtain ⟨after, stepped, follows⟩ := together.buffer.follow? .checkpoint
    cases stepped
    exact ⟨_, looked, rfl, ⟨follows, follows', together.seen⟩, careful⟩
  | rewind newer =>
    obtain ⟨after, stepped, follows⟩ := together.buffer.rewind newer
    exact ⟨after, false, stepped, ⟨follows, together.cursor.rewind newer _, fun known =>
      absurd known Bool.false_ne_true⟩, careful⟩

/-- Steps that pass no token before they have looked at it take both to the same place. -/
theorem run? (together : session.Matches source other passage looked)
    (careful : BufferStep.careful looked steps = true) :
    ∃ after passage', steps.foldlM BufferSession.follow? (session, passage) = some (after, passage') ∧
      (other.run steps).Follows source passage' := by
  induction steps generalizing session other passage looked with
  | nil => exact ⟨session, passage, rfl, together.cursor⟩
  | cons step steps ih =>
    obtain ⟨next, looked', stepped, together', careful'⟩ := together.step? careful
    obtain ⟨after, passage', followed, follows⟩ := ih together' careful'
    refine ⟨after, passage', ?_, follows⟩
    rw [List.foldlM_cons, BufferSession.follow?, stepped]
    exact followed

end BufferSession.Matches

/-- Whatever is done with a source, its token buffer shows what a new lexer reads in its mode behind the
token that was passed last, and passes what it has shown. The cursor of the grammar, on the stream that
was read once, then shows and passes the same, wherever the grammar comes to. -/
theorem cursors_coherent (source : String) :
    (∀ steps, ∃ session passage, (BufferSession.ofText source.toList).run? steps = some session ∧
      steps.foldlM BufferSession.follow? (BufferSession.ofText source.toList, Passage.start) =
        some (session, passage) ∧
      session.Agrees source.toList passage ∧
      (BufferStep.careful false steps = true →
        ((CursorSession.ofTokens (tokenize source).1).run steps).Agrees source passage)) ∧
    ∀ state, GrammarState.Reachable (tokenize source).1 state → ∀ mode,
      (state.cursor.setMode mode).Agrees source := by
  refine ⟨fun steps => ?_, fun state reachable mode => (reachable.stands.setMode mode).agrees⟩
  obtain ⟨session, passage, run, followed, agrees⟩ := BufferSession.run?_agrees source.toList steps
  refine ⟨session, passage, run, followed, agrees, fun careful => ?_⟩
  have start : (BufferSession.ofText source.toList).Matches source
      (.ofTokens (tokenize source).1) .start false :=
    ⟨BufferSession.ofText_follows _, CursorSession.ofTokens_follows source, nofun⟩
  obtain ⟨_, _, followed', follows⟩ := start.run? careful
  obtain ⟨-, rfl⟩ := Prod.mk.inj (Option.some.inj (followed'.symm.trans followed))
  exact follows.agrees

/-- A token is passed as it was looked at, also where the mode has changed since. -/
theorem cursors_coherent_accessor :
    let steps := [.peek 1, .advance, .setMode .suffix, .peek 0, .setMode .normal, .advance]
    BufferStep.careful false steps = true ∧
      ∃ session passage, (BufferSession.ofText "v.xy".toList).run? steps = some session ∧
        session.Agrees "v.xy".toList passage ∧
        ((CursorSession.ofTokens (tokenize "v.xy").1).run steps).Agrees "v.xy" passage ∧
        passage.passed = [⟨.identifier, "v", ⟨0, 1⟩, false⟩, ⟨.swizzle, ".xy", ⟨1, 4⟩, false⟩] := by
  intro steps
  obtain ⟨session, passage, run, _, agrees, cursor⟩ := (cursors_coherent "v.xy").1 steps
  have agrees' := cursor rfl
  exact ⟨rfl, session, passage, run, agrees, agrees', agrees'.taken.symm.trans (by decide +kernel)⟩

end OpenCLTree

import OpenCLTree.Proofs.Lexical.Cuts
import OpenCLTree.Proofs.Lexical.Space

namespace OpenCLTree

variable {text rest : List Char} {c : Char} {mode other : LexMode} {place : Nat} {token : Token}
  {tokens : List Token}

theorem findingIn_of_skipped (skipped : (findingAt text).1.tokenKind? = none) (mode : LexMode) :
    findingIn mode text = findingAt text := by
  unfold findingIn
  dsimp only
  split
  · rename_i dot
    rw [dot] at skipped
    cases skipped
  · rfl

theorem findingAt_of_skipped (skipped : (findingIn mode text).1.tokenKind? = none) :
    (findingAt text).1.tokenKind? = none := by
  rcases findingIn_cases mode text with same | swizzle
  · rwa [same] at skipped
  · rw [swizzle] at skipped
    cases skipped

/-- What the mode does not tell apart is found in both. -/
theorem findingIn_of_kind {kind : TokenKind} (found : (findingIn mode text).1.tokenKind? = some kind)
    (either : kind.dependsOnMode = false) (other : LexMode) :
    findingIn other text = findingIn mode text := by
  have plain : findingIn mode text = findingAt text := by
    rcases findingIn_cases mode text with same | swizzle
    · exact same
    · rw [swizzle] at found
      cases found
      cases either
  rw [plain] at found ⊢
  unfold findingIn
  dsimp only
  split
  · rename_i dot
    rw [dot] at found
    cases found
    cases either
  · rfl

namespace Lexer

variable {lexer last after one two : Lexer}

/-- A lexer that goes on in another mode. -/
def turned (lexer : Lexer) (mode : LexMode) : Lexer :=
  { lexer with mode }

/-- Whether one lexer comes to stand where another does by passing over what stands for no token. -/
inductive Skips : Lexer → Lexer → Prop
  | refl (lexer : Lexer) : Skips lexer lexer
  | pass {lexer last : Lexer} {c : Char} {rest : List Char} : lexer.rest = c :: rest →
      (findingAt (c :: rest)).1.tokenKind? = none →
      Skips (lexer.pass (findingAt (c :: rest)) c rest) last → Skips lexer last

namespace Skips

theorem turned (skips : lexer.Skips last) (mode : LexMode) :
    (lexer.turned mode).Skips (last.turned mode) := by
  induction skips with
  | refl lexer => exact .refl _
  | pass front skipped _ ih => exact .pass front skipped ih

theorem lastEnd_eq (skips : lexer.Skips last) : last.lastEnd = lexer.lastEnd := by
  induction skips with
  | refl => rfl
  | pass _ _ _ ih => exact ih

theorem mode_eq (skips : lexer.Skips last) : last.mode = lexer.mode := by
  induction skips with
  | refl => rfl
  | pass _ _ _ ih => exact ih

theorem stands (skips : lexer.Skips last) (stands : lexer.Stands text) : last.Stands text := by
  induction skips with
  | refl => exact stands
  | pass front _ _ ih => exact ih (stands.pass front (escapes_findingIn .normal _ _))

theorem next (skips : lexer.Skips last) : lexer.next = last.next := by
  induction skips with
  | refl => rfl
  | @pass lexer _ c rest front skipped _ ih =>
    have found := findingIn_of_skipped skipped lexer.mode
    rw [next_skip front (found ▸ skipped), found]
    exact ih

theorem drain (skips : lexer.Skips last) : lexer.drain = last.drain := by
  rw [drain_eq, skips.next, ← drain_eq]

end Skips

/-- A lexer passes over what stands for no token, up to the end of the text or up to a token. -/
theorem next_cases (lexer : Lexer) : ∃ last, lexer.Skips last ∧
    (last.rest = [] ∧ lexer.next = (none, last) ∨
      ∃ c rest kind, last.rest = c :: rest ∧
        (findingIn lexer.mode (c :: rest)).1.tokenKind? = some kind) := by
  fun_induction Lexer.next lexer with
  | case1 lexer ended => exact ⟨lexer, .refl lexer, .inl ⟨ended, rfl⟩⟩
  | case2 lexer c rest front found lexeme start stop after skipped ih =>
    obtain ⟨last, skips, there⟩ := ih
    have plain := findingAt_of_skipped skipped
    have same : after = lexer.pass (findingAt (c :: rest)) c rest := by
      rw [← findingIn_of_skipped plain lexer.mode]
      rfl
    exact ⟨last, .pass front plain (same ▸ skips), there⟩
  | case3 lexer c rest front found lexeme start stop after kind taken =>
    exact ⟨lexer, .refl lexer, .inr ⟨c, rest, kind, front, taken⟩⟩

theorem head?_drain (lexer : Lexer) : lexer.drain.1.head? = lexer.next.1 := by
  rw [drain_eq]
  cases lexer.next with
  | mk found after => cases found <;> rfl

/-- Behind a token the lexer stands where the token ends. -/
theorem next_settled (read : lexer.next = (some token, after)) :
    after.offset = token.span.stop ∧ after.lastEnd = token.span.stop ∧ after.mode = lexer.mode := by
  obtain ⟨last, skips, there⟩ := lexer.next_cases
  rw [skips.next] at read there
  rcases there with ⟨_, none⟩ | ⟨c, rest, kind, front, taken⟩
  · cases none.symm.trans read
  · rw [← skips.mode_eq] at taken ⊢
    rw [next_take front taken] at read
    cases read
    exact ⟨rfl, rfl, rfl⟩

/-- What a lexer reads does not depend on the errors that it has found. -/
theorem next_errors (lexer : Lexer) (errors : List LexError) :
    ∃ errors', { lexer with errors }.next = (lexer.next.1, { lexer.next.2 with errors := errors' }) := by
  fun_induction Lexer.next lexer generalizing errors with
  | case1 lexer ended => exact ⟨errors, next_none ended⟩
  | case2 lexer c rest front found lexeme start stop after skipped ih =>
    obtain ⟨errors', same⟩ := ih (record { lexer with errors } found.1 lexeme)
    refine ⟨errors', Eq.trans ?_ same⟩
    have front' : ({ lexer with errors } : Lexer).rest = c :: rest := front
    exact next_skip front' skipped
  | case3 lexer c rest front found lexeme start stop after kind taken =>
    have front' : ({ lexer with errors } : Lexer).rest = c :: rest := front
    exact ⟨_, next_take front' taken⟩

theorem drain_errors (lexer : Lexer) (errors : List LexError) :
    { lexer with errors }.drain.1 = lexer.drain.1 := by
  fun_induction Lexer.drain lexer generalizing errors with
  | case1 lexer after read =>
    obtain ⟨errors', same⟩ := next_errors lexer errors
    rw [read] at same
    rw [drain_eq, same]
  | case2 lexer token after read tokens last drained ih =>
    obtain ⟨errors', same⟩ := next_errors lexer errors
    rw [read] at same
    rw [drain_eq, same]
    have later := ih errors'
    rw [drained] at later
    exact congrArg (token :: ·) later

/-- Lexers of one mode that stand at the same place of a text read the same. -/
theorem Stands.drain_eq (stands : one.Stands text) (stands' : two.Stands text)
    (mode : one.mode = two.mode) (offset : one.offset = two.offset) (lastEnd : one.lastEnd = two.lastEnd) :
    one.drain.1 = two.drain.1 := by
  have rest : one.rest = two.rest := by
    have here := stands.rest
    rw [offset, stands'.rest] at here
    exact (Option.some.inj here).symm
  have since : one.since = two.since := by
    obtain ⟨back, dropped, here⟩ := stands.since
    obtain ⟨back', dropped', here'⟩ := stands'.since
    rw [lastEnd, dropped'] at dropped
    rw [here, here', Option.some.inj dropped]
  have source := stands.source.trans stands'.source.symm
  have same : one = { two with errors := one.errors } := by
    cases one
    cases two
    subst mode offset lastEnd rest since source
    rfl
  rw [same]
  exact drain_errors two one.errors

theorem Stands.turned (stands : lexer.Stands text) (mode : LexMode) : (lexer.turned mode).Stands text :=
  ⟨stands.source, stands.rest, stands.since, stands.errors⟩

theorem Stands.drain?_eq (stands : lexer.Stands text) : lexer.drain? = some lexer.drain := by
  unfold drain? next?
  cases read : lexer.next with
  | mk found after =>
    cases found with
    | none => rfl
    | some token =>
      have cut := (next_stands stands).2 token (by rw [read]; rfl)
      obtain ⟨gap, here, _⟩ := stands.gap?_eq (Span.isUsable_of_slice? cut).start
      simp [here]

/-- The tokens that a new lexer reads in a mode, if it starts over behind a token that ends at
`place`. -/
def tokensFrom? (text : List Char) (mode : LexMode) (place : Nat) : Option (List Token) := do
  let lexer ← { ofText text with mode }.reset? place place
  let (tokens, _) ← lexer.drain?
  return tokens

/-- Whether a lexer goes on, in either mode, as a new one does behind a token that ends at `place`. -/
structure Continues (text : List Char) (place : Nat) (lexer : Lexer) : Prop where
  stands : lexer.Stands text
  onward : ∀ mode, tokensFrom? text mode place = some (lexer.turned mode).drain.1

theorem reset?_stands {offset previousEnd : Nat} (source : lexer.source = text)
    (errors : ∀ error ∈ lexer.errors, error.span.IsUsable text)
    (there : lexer.reset? offset previousEnd = some after) (boundary : IsBoundary text previousEnd) :
    after.Stands text ∧ after.mode = lexer.mode ∧ after.offset = offset ∧ after.lastEnd = previousEnd := by
  obtain ⟨rest, dropped, rfl⟩ := Option.map_eq_some_iff.mp there
  obtain ⟨front, back, split, length⟩ := boundary
  rw [source] at dropped
  refine ⟨⟨source, dropped, ⟨back, dropBytes?_eq_some.mpr ⟨front, split, length⟩, ?_⟩, errors⟩,
    rfl, rfl, rfl⟩
  exact source ▸ dropBytes?_eq_some.mpr ⟨front, split, length⟩

namespace Continues

/-- A lexer that stands right behind a token goes on from there. -/
theorem of_settled (stands : lexer.Stands text) (offset : lexer.offset = place)
    (lastEnd : lexer.lastEnd = place) : lexer.Continues text place := by
  refine ⟨stands, fun mode => ?_⟩
  have boundary : IsBoundary text place := offset ▸ stands.offset_boundary
  have dropped : dropBytes? place text = some lexer.rest := offset ▸ stands.rest
  have there : { ofText text with mode }.reset? place place = some _ :=
    congrArg (Option.map _) dropped
  obtain ⟨stands', mode', offset', lastEnd'⟩ := reset?_stands rfl (by nofun) there boundary
  rw [tokensFrom?, there]
  simp only [Option.bind_eq_bind, Option.bind_some, stands'.drain?_eq]
  exact congrArg some (stands'.drain_eq (stands.turned mode) mode' (offset'.trans offset.symm)
    (lastEnd'.trans lastEnd.symm))

theorem ofText (text : List Char) : (ofText text).Continues text 0 :=
  of_settled (ofText_stands text) rfl rfl

/-- Reading a token. -/
theorem next (continues : lexer.Continues text place)
    (read : (lexer.turned mode).next = (some token, after)) :
    after.Continues text token.span.stop ∧
      ∃ rest, tokensFrom? text mode place = some (token :: rest) ∧
        tokensFrom? text mode token.span.stop = some rest := by
  obtain ⟨offset, lastEnd, same⟩ := next_settled read
  have stands := (next_stands (continues.stands.turned mode)).1
  rw [read] at stands
  have later := of_settled stands offset lastEnd
  refine ⟨later, after.drain.1, ?_, ?_⟩
  · rw [continues.onward, drain_some read]
  · rw [later.onward mode]
    exact congrArg (fun mode => some (after.turned mode).drain.1) same.symm

/-- Reading at the end. -/
theorem ended (continues : lexer.Continues text place)
    (read : (lexer.turned mode).next = (none, after)) :
    after.Continues text place ∧ ∀ mode, tokensFrom? text mode place = some [] := by
  obtain ⟨last, skips, ⟨front, none⟩ | ⟨c, rest, kind, front, taken⟩⟩ := (lexer.turned mode).next_cases
  · obtain rfl : last = after := congrArg Prod.snd (none.symm.trans read)
    have nothing (other : LexMode) : (last.turned other).drain.1 = [] := by
      have front' : (last.turned other).rest = [] := front
      rw [drain_none front']
    have tokens (other : LexMode) : tokensFrom? text other place = some [] := by
      rw [continues.onward other, ← nothing other]
      exact congrArg (fun read => some read.1) (skips.turned other).drain
    refine ⟨⟨skips.stands (continues.stands.turned mode), fun other => ?_⟩, tokens⟩
    rw [tokens other, nothing other]
  · rw [skips.next] at read
    rw [← skips.mode_eq] at taken
    rw [next_take front taken] at read
    cases read

end Continues

/-- Behind the end of a token a new lexer can be put. -/
theorem exists_continues (read : tokensFrom? text mode place = some tokens) :
    ∃ lexer : Lexer, lexer.Continues text place ∧ lexer.mode = mode ∧ lexer.lastEnd = place ∧
      lexer.drain.1 = tokens := by
  obtain ⟨lexer, there, drained⟩ := Option.bind_eq_some_iff.mp read
  obtain ⟨rest, dropped, rfl⟩ := Option.map_eq_some_iff.mp there
  obtain ⟨front, split, length⟩ := dropBytes?_eq_some.mp dropped
  obtain ⟨stands, atMode, offset, lastEnd⟩ :=
    reset?_stands (show _ = text from rfl) (by nofun) there ⟨front, rest, split, length⟩
  rw [stands.drain?_eq] at drained
  exact ⟨_, .of_settled stands offset lastEnd, atMode, lastEnd, Option.some.inj drained⟩

/-- The first token that is left begins where the lexer comes to by skipping. -/
theorem drain_cons (read : lexer.drain.1 = token :: tokens) : ∃ last c rest, lexer.Skips last ∧
    last.rest = c :: rest ∧ (findingIn lexer.mode (c :: rest)).1.tokenKind? = some token.kind ∧
      token.span.start = last.offset ∧ last.next.1 = some token := by
  obtain ⟨last, skips, ⟨_, none⟩ | ⟨c, rest, kind, front, taken⟩⟩ := lexer.next_cases
  · rw [drain_eq, none] at read
    cases read
  · have first := congrArg List.head? read
    rw [skips.drain, head?_drain] at first
    have here := congrArg Prod.fst (next_take front (skips.mode_eq ▸ taken))
    obtain rfl := Option.some.inj (here.symm.trans first)
    exact ⟨last, c, rest, skips, front, taken, rfl, first⟩

/-- A lexer that starts over in front of a token goes on as the one that has read it, in either
mode. -/
theorem continues_of_reset? (read : tokensFrom? text mode place = some (token :: tokens))
    (stands : lexer.Stands text) (there : lexer.reset? token.span.start place = some after) :
    after.Continues text place := by
  obtain ⟨first, continues, _, lastEnd, drained⟩ := exists_continues read
  obtain ⟨last, c, rest, skips, front, taken, start, _⟩ := drain_cons drained
  obtain ⟨stands', _, offset', lastEnd'⟩ := reset?_stands stands.source stands.errors there
    (lastEnd ▸ continues.stands.lastEnd_boundary)
  refine ⟨stands', fun other => ?_⟩
  rw [continues.onward other, (skips.turned other).drain]
  refine congrArg some (Stands.drain_eq ((skips.stands continues.stands).turned other)
    (stands'.turned other) rfl ?_ ?_)
  · exact start.symm.trans offset'.symm
  · exact (skips.lastEnd_eq.trans lastEnd).trans lastEnd'.symm

/-- What the mode does not tell apart is read in both. -/
theorem tokensFrom?_turned (read : tokensFrom? text mode place = some (token :: tokens))
    (either : token.kind.dependsOnMode = false) (other : LexMode) :
    ∃ tokens, tokensFrom? text other place = some (token :: tokens) := by
  obtain ⟨lexer, continues, rfl, _, drained⟩ := exists_continues read
  obtain ⟨last, c, rest, skips, front, taken, _, here⟩ := drain_cons drained
  have same := findingIn_of_kind taken either other
  have atMode : (last.turned other).mode = other := rfl
  have front' : (last.turned other).rest = c :: rest := front
  have turned := next_take front' (by rw [atMode, same]; exact taken)
  have plain := next_take front (skips.mode_eq ▸ taken)
  rw [atMode, same] at turned
  rw [plain, skips.mode_eq] at here
  have read' : (lexer.turned other).next.1 = some token := by
    rw [(skips.turned other).next, turned]
    exact here
  exact ⟨_, (continues.next (Prod.ext read' rfl)).2.choose_spec.1⟩

/-- Behind the first token that is left the others are left. -/
theorem tokensFrom?_tail (read : tokensFrom? text mode place = some (token :: tokens)) :
    tokensFrom? text mode token.span.stop = some tokens := by
  obtain ⟨lexer, continues, rfl, _, drained⟩ := exists_continues read
  have first := congrArg List.head? drained
  rw [head?_drain] at first
  have next : (lexer.turned lexer.mode).next = (some token, lexer.next.2) := Prod.ext first rfl
  obtain ⟨_, rest, whole, later⟩ := continues.next next
  rw [read] at whole
  rw [later, (List.cons.inj (Option.some.inj whole)).2]

end Lexer

end OpenCLTree

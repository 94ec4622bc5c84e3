import OpenCLTree.Proofs.Lexical.Boundary
import OpenCLTree.Lexical.TokenBuffer

namespace OpenCLTree

variable {text rest lexeme sequence spoiled : List Char} {offset start count : Nat}

theorem escapeExtent_prefix (invalid : escapeExtent text = .error spoiled) : spoiled <+: text := by
  unfold escapeExtent at invalid
  split at invalid
  · cases invalid
    exact List.nil_prefix
  · rename_i c rest
    have alone : [c] <+: c :: rest := ⟨rest, rfl⟩
    split at invalid
    · cases invalid
    split at invalid
    · cases invalid
    split at invalid
    · dsimp only at invalid
      split at invalid <;> cases invalid
      exact alone
    split at invalid
    · dsimp only at invalid
      generalize (if c == 'u' then 4 else 8) = width at invalid
      split at invalid <;> cases invalid
      exact (List.cons_prefix_cons.mpr
        ⟨rfl, (List.takeWhile_prefix _).trans (List.take_prefix width rest)⟩)
    · cases invalid
      exact alone

theorem invalidEscapeFrom_split (invalid : invalidEscapeFrom start text = some (offset, sequence)) :
    ∃ front back, text = front ++ (sequence ++ back) ∧ start + byteLength front = offset := by
  fun_induction invalidEscapeFrom start text with
  | case1 => cases invalid
  | case2 start rest spoiled extent =>
    obtain ⟨rfl, rfl⟩ := Prod.mk.inj (Option.some.inj invalid)
    obtain ⟨back, rfl⟩ := escapeExtent_prefix extent
    exact ⟨[], back, rfl, rfl⟩
  | case3 start rest count extent ih =>
    obtain ⟨front, back, split, length⟩ := ih invalid
    refine ⟨'\\' :: (rest.take count ++ front), back, ?_, ?_⟩
    · rw [List.cons_append, List.append_assoc, ← split, List.take_append_drop]
    · rw [byteLength, Lexer.byteLength_append]
      omega
  | case4 start c rest other ih =>
    obtain ⟨front, back, split, length⟩ := ih invalid
    refine ⟨c :: front, back, by rw [split, List.cons_append], ?_⟩
    rw [byteLength]
    omega

/-- A spoiled escape sequence stands in its literal at the offset it is reported with. -/
theorem findInvalidEscape_slice (invalid : findInvalidEscape text = some (offset, sequence)) :
    slice? text ⟨offset, offset + byteLength sequence⟩ = some sequence := by
  obtain ⟨front, back, rfl, length⟩ := invalidEscapeFrom_split invalid
  rw [Nat.zero_add] at length
  rw [← length]
  exact slice?_append front sequence back

theorem error?_irregular? {found : Finding × Nat} (irregular : irregular? text = some found)
    (escape : String) (inside : Nat) : found.1.error? ≠ some (.invalidEscape escape inside) := by
  rcases irregular?_cases irregular with ⟨_, _, rfl⟩ | ⟨_, _, rfl⟩ | ⟨broken, _⟩
  · nofun
  · nofun
  · rw [broken]
    nofun

theorem invalidEscape_judge {recognized : Recognized} {count inside : Nat} {escape : String}
    (invalid : (judge recognized count text).1.error? = some (.invalidEscape escape inside)) :
    findInvalidEscape (text.take (judge recognized count text).2) = some (inside, escape.toList) := by
  cases recognized with
  | blank | lineComment | token => cases invalid
  | commentOpening =>
    simp only [judge] at invalid
    split at invalid <;> cases invalid
  | quotation =>
    simp only [judge] at invalid ⊢
    split at invalid
    · rename_i offset sequence found
      cases invalid
      simp [found]
    · cases invalid
  | openQuotation =>
    simp only [judge, Finding.error?] at invalid
    split at invalid <;> cases invalid

/-- The escape that a finding complains about is the one found in the characters it takes. -/
theorem invalidEscape_findingAt {inside : Nat} {escape : String}
    (invalid : (findingAt text).1.error? = some (.invalidEscape escape inside)) :
    findInvalidEscape (text.take (findingAt text).2) = some (inside, escape.toList) := by
  rcases findingAt_eq text with irregular | ⟨recognized, count, _, same⟩ | same
  · exact absurd invalid (error?_irregular? irregular escape inside)
  · rw [same] at invalid ⊢
    exact invalidEscape_judge invalid
  · rw [same] at invalid
    cases invalid

/-- Suffix mode changes nothing but a dot with component names after it. -/
theorem findingIn_cases (mode : LexMode) (text : List Char) :
    findingIn mode text = findingAt text ∨ (findingIn mode text).1 = .token .swizzle := by
  unfold findingIn
  dsimp only
  split
  · split
    · exact .inr rfl
    · exact .inl rfl
  · exact .inl rfl

theorem invalidEscape_findingIn {mode : LexMode} {inside : Nat} {escape : String}
    (invalid : (findingIn mode text).1.error? = some (.invalidEscape escape inside)) :
    findInvalidEscape (text.take (findingIn mode text).2) = some (inside, escape.toList) := by
  rcases findingIn_cases mode text with same | swizzle
  · rw [same] at invalid ⊢
    exact invalidEscape_findingAt invalid
  · rw [swizzle] at invalid
    cases invalid

theorem LexError.mem_insertInto {error new : LexError} {errors : List LexError}
    (member : error ∈ new.insertInto errors) : error = new ∨ error ∈ errors := by
  induction errors with
  | nil => exact .inl (List.mem_singleton.mp member)
  | cons other rest ih =>
    unfold insertInto at member
    split at member
    · exact List.mem_cons.mp member
    split at member
    · exact .inr member
    · rcases List.mem_cons.mp member with rfl | below
      · exact .inr (List.mem_cons_self ..)
      · exact (ih below).imp_right (List.mem_cons_of_mem _)

/-- Whether a token has the text that its span cuts out of a source. -/
def Token.IsCutFrom (text : List Char) (token : Token) : Prop :=
  slice? text token.span = some token.text.toList

namespace Lexer

/-- Whether a lexer stands in a text where its offsets say, with errors that lie in it. -/
structure Stands (text : List Char) (lexer : Lexer) : Prop where
  source : lexer.source = text
  rest : dropBytes? lexer.offset text = some lexer.rest
  since : ∃ back, dropBytes? lexer.lastEnd text = some back ∧ lexer.since = some back
  errors : ∀ error ∈ lexer.errors, error.span.IsUsable text

theorem ofText_stands (text : List Char) : (ofText text).Stands text where
  source := rfl
  rest := by rw [ofText, dropBytes?]
  since := ⟨text, by rw [ofText, dropBytes?], rfl⟩
  errors _ member := nomatch member

namespace Stands

variable {lexer : Lexer} {c : Char}

theorem offset_boundary (stands : lexer.Stands text) : IsBoundary text lexer.offset := by
  obtain ⟨front, split, length⟩ := dropBytes?_eq_some.mp stands.rest
  exact ⟨front, lexer.rest, split, length⟩

theorem lastEnd_boundary (stands : lexer.Stands text) : IsBoundary text lexer.lastEnd := by
  obtain ⟨back, dropped, _⟩ := stands.since
  obtain ⟨front, split, length⟩ := dropBytes?_eq_some.mp dropped
  exact ⟨front, back, split, length⟩

/-- A piece of the text in front of a lexer can be cut out. -/
theorem slice?_front {piece after : List Char} (stands : lexer.Stands text)
    (rest : lexer.rest = piece ++ after) :
    slice? text ⟨lexer.offset, lexer.offset + byteLength piece⟩ = some piece := by
  obtain ⟨front, split, length⟩ := dropBytes?_eq_some.mp stands.rest
  rw [split, rest, ← length]
  exact slice?_append front piece after

theorem dropBytes?_front {piece after : List Char} (stands : lexer.Stands text)
    (rest : lexer.rest = piece ++ after) :
    dropBytes? (lexer.offset + byteLength piece) text = some after := by
  obtain ⟨front, split, length⟩ := dropBytes?_eq_some.mp stands.rest
  refine dropBytes?_eq_some.mpr ⟨front ++ piece, ?_, ?_⟩
  · rw [split, rest, List.append_assoc]
  · rw [byteLength_append, length]

/-- The gap before a token can be cut out, wherever the last token ended. -/
theorem gap?_eq (stands : lexer.Stands text) {start : Nat} (boundary : IsBoundary text start) :
    ∃ gap, lexer.gap? start = some gap ∧
      slice? text ⟨min lexer.lastEnd start, start⟩ = some gap := by
  obtain ⟨back, dropped, since⟩ := stands.since
  unfold gap?
  by_cases earlier : lexer.lastEnd < start
  · obtain ⟨front, middle, back', split, atEnd, atStart⟩ :=
      stands.lastEnd_boundary.between boundary (Nat.le_of_lt earlier)
    have same : back = middle ++ back' := by
      rw [split, ← atEnd, dropBytes?_append] at dropped
      exact (Option.some.inj dropped).symm
    have length : start - lexer.lastEnd = byteLength middle := by omega
    refine ⟨middle, ?_, ?_⟩
    · rw [if_pos earlier, since, Option.bind_some, same, length, takeBytes?_append]
    · rw [Nat.min_eq_left (Nat.le_of_lt earlier)]
      exact slice?_eq_some.mpr ⟨front, back', split, atEnd, atStart⟩
  · refine ⟨[], if_neg earlier, ?_⟩
    rw [Nat.min_eq_right (Nat.le_of_not_lt earlier)]
    obtain ⟨front, back', split, atStart⟩ := boundary
    exact slice?_eq_some.mpr ⟨front, back', split, atStart, atStart⟩

/-- Where the names after a dot are cut out of the source, they are those in front of the
lexer. -/
theorem cutFinding?_eq (stands : lexer.Stands text) :
    lexer.cutFinding? = some (findingIn lexer.mode lexer.rest) := by
  have after := stands.dropBytes?_front
    (List.take_append_drop (findingAt lexer.rest).2 lexer.rest).symm
  unfold cutFinding? findingIn
  dsimp only
  rw [stands.source, after]
  cases lexer.mode with
  | normal => rfl
  | suffix =>
    cases (findingAt lexer.rest).1 with
    | token kind =>
      cases kind with
      | punct mark => cases mark <;> rfl
      | _ => rfl
    | _ => rfl

/-- The errors stay inside the text when one about the piece in front is added. -/
theorem record_usable {found : Finding} (stands : lexer.Stands text)
    (front : lexer.rest = c :: rest) {count : Nat}
    (escapes : ∀ escape inside, found.error? = some (.invalidEscape escape inside) →
      findInvalidEscape (c :: rest.take count) = some (inside, escape.toList)) :
    ∀ error ∈ lexer.record found (c :: rest.take count), error.span.IsUsable text := by
  intro error member
  unfold record at member
  split at member
  · exact stands.errors error member
  rename_i kind complains
  dsimp only at member
  rcases LexError.mem_insertInto member with rfl | old
  · have whole : lexer.rest = (c :: rest.take count) ++ rest.drop count := by
      rw [front, List.cons_append, List.take_append_drop]
    have first : slice? text ⟨lexer.offset, lexer.offset + byteLength [c]⟩ = some [c] :=
      stands.slice?_front front
    cases kind with
    | invalidEscape escape inside =>
      have escaped := slice?_slice (stands.slice?_front whole)
        (findInvalidEscape_slice (escapes escape inside complains))
      rw [LexError.span, Nat.add_assoc]
      exact Span.isUsable_of_slice? escaped
    | _ =>
      simpa [LexError.span] using Span.isUsable_of_slice? first
  · exact stands.errors error old

/-- A lexer that passes a piece of the text still stands in it. -/
theorem pass (stands : lexer.Stands text) (front : lexer.rest = c :: rest) {found : Finding}
    {count : Nat} (escapes : ∀ escape inside, found.error? = some (.invalidEscape escape inside) →
      findInvalidEscape (c :: rest.take count) = some (inside, escape.toList)) :
    Stands text { lexer with
      offset := lexer.offset + byteLength (c :: rest.take count)
      rest := rest.drop count
      errors := lexer.record found (c :: rest.take count) } where
  source := stands.source
  rest := stands.dropBytes?_front (by rw [front, List.cons_append, List.take_append_drop])
  since := stands.since
  errors := stands.record_usable front escapes

end Stands

theorem escapes_findingIn (mode : LexMode) (c : Char) (rest : List Char) (escape : String)
    (inside : Nat)
    (invalid : (findingIn mode (c :: rest)).1.error? = some (.invalidEscape escape inside)) :
    findInvalidEscape (c :: rest.take ((findingIn mode (c :: rest)).2 - 1)) =
      some (inside, escape.toList) := by
  have found := invalidEscape_findingIn invalid
  cases count : (findingIn mode (c :: rest)).2 with
  | zero =>
    rw [count, List.take_zero] at found
    unfold findInvalidEscape invalidEscapeFrom at found
    cases found
  | succ count =>
    rw [count, List.take_succ_cons] at found
    exact found

/-- What the lexer reads is cut from the text, and the lexer after it stands in the text. -/
theorem next_stands {lexer : Lexer} (stands : lexer.Stands text) :
    lexer.next.2.Stands text ∧ ∀ token ∈ lexer.next.1, token.IsCutFrom text := by
  fun_induction next lexer with
  | case1 => exact ⟨stands, by simp⟩
  | case2 lexer c rest front found lexeme start stop after skipped ih =>
    exact ih (stands.pass front (escapes_findingIn _ _ _))
  | case3 lexer c rest front found lexeme start stop after kind read =>
    have passed := stands.pass front (escapes_findingIn lexer.mode c rest)
    refine ⟨⟨passed.source, passed.rest, ⟨after.rest, passed.rest, rfl⟩, passed.errors⟩, ?_⟩
    intro token here
    obtain rfl := Option.some.inj here
    rw [Token.IsCutFrom, String.toList_ofList]
    exact stands.slice?_front (by rw [front, List.cons_append, List.take_append_drop])

theorem drain_stands {lexer : Lexer} (stands : lexer.Stands text) :
    lexer.drain.2.Stands text ∧ ∀ token ∈ lexer.drain.1, token.IsCutFrom text := by
  fun_induction drain lexer with
  | case1 lexer after read =>
    have passed := next_stands stands
    rw [read] at passed
    exact ⟨passed.1, List.forall_mem_nil _⟩
  | case2 lexer token after read tokens last drained ih =>
    have passed := next_stands stands
    rw [read] at passed
    have later := ih passed.1
    rw [drained] at later
    exact ⟨later.1, List.forall_mem_cons.mpr ⟨passed.2 token rfl, later.2⟩⟩

/-- One piece of the text, cut out of the source and told from the rest. -/
theorem Stands.cutNext?_cons {c : Char} {lexer : Lexer} (stands : lexer.Stands text)
    (front : lexer.rest = c :: rest) {found : Finding × Nat}
    (here : found = findingIn lexer.mode (c :: rest)) {lexeme : List Char}
    (taken : lexeme = c :: rest.take (found.2 - 1)) {after : Lexer}
    (passed : after = { lexer with
      offset := lexer.offset + byteLength lexeme
      rest := rest.drop (found.2 - 1)
      errors := lexer.record found.1 lexeme }) :
    lexer.cutNext? = match found.1.tokenKind? with
      | none => after.cutNext?
      | some kind => some
        (some ⟨kind, String.ofList lexeme, ⟨lexer.offset, lexer.offset + byteLength lexeme⟩,
          (lexer.gap? lexer.offset).any breaksLine⟩,
        { after with lastEnd := lexer.offset + byteLength lexeme, since := some after.rest }) := by
  have split : lexer.rest = lexeme ++ rest.drop (found.2 - 1) := by
    rw [front, taken, List.cons_append, List.take_append_drop]
  have piece := stands.slice?_front split
  obtain ⟨gap, sameGap, cut⟩ := stands.gap?_eq stands.offset_boundary
  rw [cutNext?]
  split
  · rename_i front'
    cases front.symm.trans front'
  · rename_i c' rest' front'
    obtain ⟨rfl, rfl⟩ := List.cons.inj (front.symm.trans front')
    rw [stands.cutFinding?_eq, front, ← here]
    simp only [Option.bind_eq_bind, Option.bind_some, stands.source, ← taken, piece, cut, sameGap]
    rw [passed, stands.source]
    rfl

/-- Cutting every piece out of the source never fails, and it reads what the lexer reads. -/
theorem cutNext?_eq {lexer : Lexer} (stands : lexer.Stands text) :
    lexer.cutNext? = some lexer.next := by
  fun_induction next lexer with
  | case1 lexer front =>
    unfold cutNext?
    split
    · rfl
    · simp_all
  | case2 lexer c rest front found lexeme start stop after skipped ih =>
    rw [stands.cutNext?_cons front rfl rfl rfl, skipped]
    exact ih (stands.pass front (escapes_findingIn _ _ _))
  | case3 lexer c rest front found lexeme start stop after kind read =>
    rw [stands.cutNext?_cons front rfl rfl rfl, read]

end Lexer

theorem tokenize_cut (source : String) :
    ∀ token ∈ (tokenize source).1, token.IsCutFrom source.toList :=
  (Lexer.drain_stands (Lexer.ofText_stands source.toList)).2

theorem tokenize_errors_usable (source : String) :
    ∀ error ∈ (tokenize source).2, error.span.IsUsable source.toList := fun error member =>
  (Lexer.drain_stands (Lexer.ofText_stands source.toList)).1.errors error (List.mem_reverse.mp member)

end OpenCLTree

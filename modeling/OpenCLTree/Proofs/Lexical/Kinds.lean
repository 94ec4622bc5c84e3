import OpenCLTree.Proofs.Lexical.Joined

namespace OpenCLTree

/-- How a token is read off the head of a text: what kind of token stands there, and how far it
reaches. -/
structure Token.CutFrom (text : List Char) (token : Token) : Prop where
  kind : (findingAt text).1.tokenKind? = some token.kind
  lexeme : token.text.toList = text.take (max 1 (findingAt text).2)

namespace Lexer

variable {lexer after : Lexer} {token : Token}

theorem lexeme_eq_take (c : Char) (rest : List Char) (count : Nat) :
    c :: rest.take (count - 1) = (c :: rest).take (max 1 count) := by
  rcases Nat.eq_zero_or_pos count with rfl | positive
  · rfl
  · rw [Nat.max_eq_right positive, ← Nat.succ_pred_eq_of_pos positive, List.take_succ_cons]
    rfl

/-- What the next token has to do with the text in front of the lexer. -/
structure ReadOff (lexer : Lexer) (token : Token) (after : Lexer) : Prop where
  mode : after.mode = .normal
  rest : after.rest <:+ lexer.rest
  since : after.since = some after.rest
  cut : ∃ text, text <:+ lexer.rest ∧ token.CutFrom text ∧
    (after.errors = [] → (findingAt text).1.error? = none)
  newline : (∀ text ∈ lexer.since, '\n' ∉ text) → token.newlineBefore = false

theorem breaksLine_eq_false {text : List Char} (line : '\n' ∉ text) : breaksLine text = false := by
  fun_induction breaksLine text with
  | case1 | case2 | case3 => simp at line
  | case4 _ rest _ _ _ ih => exact ih fun member => line (List.mem_cons_of_mem _ member)
  | case5 => rfl

theorem gap?_line {start : Nat} (line : ∀ text ∈ lexer.since, '\n' ∉ text) :
    (lexer.gap? start).any breaksLine = false := by
  unfold gap?
  split
  · cases since : lexer.since with
    | none => rfl
    | some text =>
      rw [Option.bind_some]
      cases taken : takeBytes? (start - lexer.lastEnd) text with
      | none => rfl
      | some front =>
        obtain ⟨back, rfl, _⟩ := takeBytes?_eq_some.mp taken
        refine breaksLine_eq_false fun member => line _ since ?_
        exact List.mem_append_left _ member
  · rfl

theorem next_readOff (normal : lexer.mode = .normal) (read : lexer.next = (some token, after)) :
    lexer.ReadOff token after := by
  fun_induction next lexer generalizing after with
  | case1 => simp at read
  | case2 =>
    rename_i lexer c rest text found lexeme start stop _ _ ih
    have here : rest.drop (found.2 - 1) <:+ lexer.rest :=
      text ▸ (List.drop_suffix _ _).trans (List.suffix_cons _ _)
    have later := ih normal read
    obtain ⟨cut, suffix, facts⟩ := later.cut
    exact
      { mode := later.mode
        rest := later.rest.trans here
        since := later.since
        cut := ⟨cut, suffix.trans here, facts⟩
        newline := later.newline }
  | case3 =>
    rename_i lexer c rest text found lexeme start stop _ kind atKind
    obtain ⟨same, rfl⟩ := Prod.mk.inj read
    obtain rfl := Option.some.inj same
    have plain : found = findingAt (c :: rest) := by
      simp only [found, normal, findingIn]
    refine ⟨normal, ?_, rfl, ⟨c :: rest, text ▸ List.suffix_rfl, ⟨?_, ?_⟩, fun clean => ?_⟩, gap?_line⟩
    · exact text ▸ (List.drop_suffix _ _).trans (List.suffix_cons _ _)
    · rwa [← plain]
    · rw [← plain, ← lexeme_eq_take]
      exact String.toList_ofList
    · rw [← plain]
      exact (record_eq_nil.mp clean).2

/-- All tokens of a text are read off some part of it, and where there are no errors, nothing
malformed is. -/
theorem drain_cut (normal : lexer.mode = .normal) :
    ∀ token ∈ lexer.drain.1, ∃ text, token.CutFrom text ∧
      (lexer.drain.2.errors = [] → (findingAt text).1.error? = none) := by
  fun_induction drain lexer with
  | case1 => exact List.forall_mem_nil _
  | case2 lexer token after read tokens last drained ih =>
    have step := next_readOff normal read
    obtain ⟨text, _, cut, sound⟩ := step.cut
    rw [drained] at ih
    refine List.forall_mem_cons.mpr ⟨⟨text, cut, fun clean => sound (errors_drain ?_)⟩, ih step.mode⟩
    rw [drained]
    exact clean

theorem drain_line (normal : lexer.mode = .normal) (since : ∀ text ∈ lexer.since, '\n' ∉ text)
    (line : '\n' ∉ lexer.rest) : ∀ token ∈ lexer.drain.1, token.newlineBefore = false := by
  fun_induction drain lexer with
  | case1 => exact List.forall_mem_nil _
  | case2 lexer token after read tokens last drained ih =>
    have step := next_readOff normal read
    have later : '\n' ∉ after.rest := fun member => line (step.rest.subset member)
    rw [drained] at ih
    refine List.forall_mem_cons.mpr ⟨step.newline since, ih step.mode ?_ later⟩
    rw [step.since]
    exact fun text here => Option.some.inj here ▸ later

end Lexer

theorem tokenize_cut_from (source : String) :
    ∀ token ∈ (tokenize source).1, ∃ text, token.CutFrom text ∧
      ((tokenize source).2 = [] → (findingAt text).1.error? = none) := by
  intro token member
  obtain ⟨text, cut, sound⟩ := Lexer.drain_cut rfl token member
  exact ⟨text, cut, fun clean => sound (List.reverse_eq_nil_iff.mp clean)⟩

/-- No line ends between the tokens of a single line. -/
theorem tokenize_line {source : String} (line : '\n' ∉ source.toList) :
    ∀ token ∈ (tokenize source).1, token.newlineBefore = false :=
  Lexer.drain_line rfl (fun _ here => Option.some.inj here ▸ line) line

namespace Token.CutFrom

variable {text other : List Char} {token one two : Token}

/-- What a token is told by its text alone: a hash mark, a name that is cut off, or what the first
rule for the text recognizes. -/
theorem cases_of (cut : token.CutFrom text) :
    (token.kind = .punct .hash ∧ token.text.toList.head? = some '#') ∨
      (token.kind = .identifier ∧ token.text.toList = ['L', '\'']) ∨
      ∃ recognized, TokenRule.firstMatch? TokenRule.all token.text.toList = some recognized ∧
        recognized.tokenKind? = some token.kind ∧
        ((findingAt text).1.error? = none → ∀ kind, recognized ≠ .openQuotation kind) := by
  have kind := cut.kind
  have lexeme := cut.lexeme
  rcases findingAt_eq text with irregular | ⟨recognized, count, longest, judged⟩ | same
  · rcases irregular?_cases irregular with ⟨_, rfl, same⟩ | ⟨_, rfl, same⟩ | ⟨broken, _⟩
    · rw [same] at kind lexeme
      rw [Nat.max_eq_right (Nat.le_add_right 1 _), Nat.add_comm] at lexeme
      exact .inl ⟨(Option.some.inj kind).symm, by rw [lexeme]; rfl⟩
    · rw [same] at kind lexeme
      exact .inr (.inl ⟨(Option.some.inj kind).symm, lexeme⟩)
    · rw [broken] at kind
      cases kind
  · rw [judged] at kind lexeme ⊢
    right; right
    have spec := TokenRule.longest?_eq_some.mp longest
    rcases tokenKind?_judge recognized count text with none | ⟨same, counted⟩
    · cases none.symm.trans kind
    · rw [counted, Nat.max_eq_right spec.positive] at lexeme
      refine ⟨recognized, lexeme ▸ spec.first, same.symm.trans kind, fun sound kind open_ => ?_⟩
      rw [open_] at sound
      cases sound
  · rw [same] at kind
    cases kind

theorem firstMatch?_cutName :
    TokenRule.firstMatch? TokenRule.all ['L', '\''] = some (.openQuotation .character) := by
  decide +kernel

/-- A name that no special treatment reads is a word. -/
theorem firstMatch?_identifier {recognized : Recognized} {word : List Char}
    (first : TokenRule.firstMatch? TokenRule.all word = some recognized)
    (kind : recognized.tokenKind? = some .identifier) : TokenRule.word.Matches word := by
  have names : TokenRule.all.filter (·.recognized.tokenKind? = some .identifier) =
      [⟨.token .identifier, TokenRule.word⟩] := rfl
  obtain ⟨rule, member, rfl, matched⟩ := TokenRule.mem_of_firstMatch? first
  have fixed : rule ∈ TokenRule.all.filter (·.recognized.tokenKind? = some .identifier) :=
    List.mem_filter.mpr ⟨member, decide_eq_true kind⟩
  rw [names, List.mem_singleton] at fixed
  rwa [fixed] at matched

theorem head_identifier (cut : token.CutFrom text) (name : token.kind = .identifier) :
    ∃ c rest, token.text.toList = c :: rest ∧ isWordStart c = true := by
  rcases cut.cases_of with ⟨hash, _⟩ | ⟨_, cutName⟩ | ⟨recognized, first, kind, _⟩
  · cases hash.symm.trans name
  · exact ⟨'L', ['\''], cutName, by decide⟩
  · obtain ⟨front, back, whole, start, _⟩ :=
      Pattern.matches_seq.mp (firstMatch?_identifier first (kind.trans (congrArg some name)))
    obtain ⟨c, isStart, rfl⟩ := Pattern.matches_one.mp start
    exact ⟨c, back, whole, isStart⟩

/-- What is spelled like a name and is not malformed is a name. -/
theorem identifier_of_text (cut : one.CutFrom text) (name : one.kind = .identifier)
    (cut' : two.CutFrom other) (sound : (findingAt other).1.error? = none)
    (same : two.text = one.text) : two.kind = .identifier := by
  obtain ⟨c, rest, word, start⟩ := cut.head_identifier name
  rcases cut'.cases_of with ⟨_, hash⟩ | ⟨name', _⟩ | ⟨recognized, first, kind, closed⟩
  · rw [same, word, List.head?_cons, Option.some.injEq] at hash
    rw [hash] at start
    cases start
  · exact name'
  · rcases cut.cases_of with ⟨hash, _⟩ | ⟨_, cutName⟩ | ⟨recognized', first', kind', _⟩
    · cases hash.symm.trans name
    · rw [same, cutName, firstMatch?_cutName] at first
      exact absurd (Option.some.inj first).symm (closed sound _)
    · rw [same] at first
      obtain rfl := Option.some.inj (first.symm.trans first')
      exact (Option.some.inj (kind.symm.trans kind')).trans name

end Token.CutFrom

/-- A name that a text without errors does not have is not spelled by any of its tokens. -/
theorem tokenize_apart {a b : String} (clean : (tokenize a).2 = [])
    (apart : ∀ name ∈ (tokenize b).1, name.kind = .identifier →
      ∀ other ∈ (tokenize a).1, other.kind = .identifier → other.text ≠ name.text) :
    ∀ name ∈ (tokenize b).1, name.kind = .identifier →
      ∀ other ∈ (tokenize a).1, other.text ≠ name.text := by
  intro name member isName other listed same
  obtain ⟨_, cut, _⟩ := tokenize_cut_from b name member
  obtain ⟨_, cut', sound⟩ := tokenize_cut_from a other listed
  exact apart name member isName other listed
    (cut.identifier_of_text isName cut' (sound clean) same) same

end OpenCLTree

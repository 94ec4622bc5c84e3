import OpenCLTree.Proofs.Lexical.Spelling

namespace OpenCLTree

namespace Token

/-- The texts of some tokens with a blank in front of each. -/
def blanked (tokens : List Token) : List Char :=
  tokens.flatMap fun token => ' ' :: token.text.toList

/-- Some tokens, written with single blanks between them. -/
def spaced (tokens : List Token) : String :=
  " ".intercalate (tokens.map (·.text))

theorem toList_spaced (token : Token) (rest : List Token) :
    (spaced (token :: rest)).toList = token.text.toList ++ blanked rest := by
  induction rest generalizing token with
  | nil => simp [spaced, blanked]
  | cons other rest ih =>
    have tail := ih other
    rw [spaced, List.map_cons] at tail ⊢
    rw [List.map_cons, String.intercalate_cons_cons, String.toList_append, String.toList_append,
      tail, List.append_assoc]
    simp [blanked]

/-- The places of some tokens that stand one blank apart, the first of them at `start`. -/
def placedFrom (start : Nat) : List Token → List Token
  | [] => []
  | token :: rest =>
    let stop := start + byteLength token.text.toList
    { token with span := ⟨start, stop⟩ } :: placedFrom (stop + 1) rest

theorem length_placedFrom (start : Nat) (tokens : List Token) :
    (placedFrom start tokens).length = tokens.length := by
  induction tokens generalizing start with
  | nil => rfl
  | cons token rest ih => simp [placedFrom, ih]

theorem separate_blanked (tokens : List Token) : (blanked tokens).head?.all (· == ' ') = true := by
  cases tokens <;> rfl

end Token

namespace Lexer

variable {lexer after : Lexer} {token : Token} {w v : List Char}

/-- The lexer right after a token that ends at `stop`. -/
def past (lexer : Lexer) (stop : Nat) (rest : List Char) : Lexer :=
  { lexer with offset := stop, rest := rest, lastEnd := stop, since := some rest }

theorem next_spelled (normal : lexer.mode = .normal) (spelled : token.IsSpelled)
    (rest : lexer.rest = token.text.toList ++ v) (separate : v.head?.all (· == ' ') = true)
    (sameLine : (lexer.gap? lexer.offset).any breaksLine = false) :
    let stop := lexer.offset + byteLength token.text.toList
    lexer.next = (some { token with span := ⟨lexer.offset, stop⟩ }, lexer.past stop v) := by
  obtain ⟨c, w, text⟩ := List.exists_cons_of_ne_nil spelled.plain.nonempty
  have found := findingAt_spaced spelled.plain separate spelled.first
  rw [← rest] at found
  rw [next]
  split
  · rename_i ended
    rw [ended, text] at rest
    cases rest
  · rename_i d others here
    have split : d :: others = c :: (w ++ v) := by rw [← here, rest, text, List.cons_append]
    obtain ⟨rfl, rfl⟩ := List.cons.inj split
    have lexeme : String.ofList (d :: w) = token.text := by rw [← text, String.ofList_toList]
    simp only [normal, findingIn_normal, ← here, found, text, List.length_cons,
      Nat.add_sub_cancel, List.take_left, List.drop_left, Finding.tokenKind?, record,
      Finding.error?, sameLine, lexeme, spelled.newlineBefore, past]

theorem next_blank (normal : lexer.mode = .normal) (plain : Plain w)
    (rest : lexer.rest = ' ' :: (w ++ v)) :
    lexer.next = { lexer with offset := lexer.offset + 1, rest := w ++ v }.next := by
  have found := findingAt_blank plain (v := v)
  rw [← rest] at found
  rw [next]
  split
  · rename_i ended
    cases ended.symm.trans rest
  · rename_i d others here
    obtain ⟨rfl, rfl⟩ := List.cons.inj (here.symm.trans rest)
    simp only [normal, findingIn_normal, ← here, found, Finding.tokenKind?, record, Finding.error?,
      List.take_zero, List.drop_zero, Nat.sub_self]
    rfl

theorem next_blanked (normal : lexer.mode = .normal) (spelled : token.IsSpelled)
    (rest : lexer.rest = ' ' :: (token.text.toList ++ v)) (separate : v.head?.all (· == ' ') = true)
    (lastEnd : lexer.lastEnd = lexer.offset) (since : lexer.since = some lexer.rest) :
    let start := lexer.offset + 1
    let stop := start + byteLength token.text.toList
    lexer.next = (some { token with span := ⟨start, stop⟩ }, lexer.past stop v) := by
  rw [next_blank normal spelled.plain rest]
  refine next_spelled normal spelled rfl separate ?_
  have blank : ' '.utf8Size = 1 := rfl
  have gap : takeBytes? 1 lexer.rest = some [' '] := by
    simp [rest, takeBytes?, blank]
  simp only [gap?, lastEnd, since, Nat.lt_succ_self, if_true, Nat.add_sub_cancel_left,
    Option.bind_some, gap]
  rfl

theorem drain_blanked {tokens : List Token} (lexer : Lexer)
    (spelled : ∀ token ∈ tokens, token.IsSpelled) (normal : lexer.mode = .normal)
    (rest : lexer.rest = Token.blanked tokens)
    (lastEnd : lexer.lastEnd = lexer.offset) (since : lexer.since = some lexer.rest) :
    lexer.drain.1 = Token.placedFrom (lexer.offset + 1) tokens ∧
      lexer.drain.2.errors = lexer.errors := by
  induction tokens generalizing lexer with
  | nil =>
    rw [drain_none rest]
    exact ⟨rfl, rfl⟩
  | cons token others ih =>
    obtain ⟨here, later⟩ := List.forall_mem_cons.mp spelled
    have read := next_blanked normal here rest (Token.separate_blanked others) lastEnd since
    obtain ⟨tokens, errors⟩ := ih (lexer.past _ _) later normal rfl rfl rfl
    rw [drain_some read]
    exact ⟨congrArg _ tokens, errors⟩

theorem drain_spaced {others : List Token} (lexer : Lexer)
    (spelled : ∀ other ∈ token :: others, other.IsSpelled) (normal : lexer.mode = .normal)
    (rest : lexer.rest = token.text.toList ++ Token.blanked others)
    (sameLine : (lexer.gap? lexer.offset).any breaksLine = false) :
    lexer.drain.1 = Token.placedFrom lexer.offset (token :: others) ∧
      lexer.drain.2.errors = lexer.errors := by
  obtain ⟨here, later⟩ := List.forall_mem_cons.mp spelled
  have read := next_spelled normal here rest (Token.separate_blanked others) sameLine
  obtain ⟨tokens, errors⟩ := drain_blanked (lexer.past _ _) later normal rfl rfl rfl
  rw [drain_some read]
  exact ⟨congrArg _ tokens, errors⟩

end Lexer

/-- Tokens that are written with single blanks between them are read back. -/
theorem tokenize_spaced {tokens : List Token} (spelled : ∀ token ∈ tokens, token.IsSpelled) :
    tokenize (Token.spaced tokens) = (Token.placedFrom 0 tokens, []) := by
  cases tokens with
  | nil =>
    rw [tokenize, Lexer.drain_none (by rfl)]
    rfl
  | cons token rest =>
    have text := Token.toList_spaced token rest
    obtain ⟨tokens, errors⟩ := Lexer.drain_spaced
      (.ofText (Token.spaced (token :: rest)).toList) spelled rfl text rfl
    exact Prod.ext tokens (congrArg List.reverse errors)

end OpenCLTree

import OpenCLTree.Proofs.Lexical.Space

namespace OpenCLTree

namespace Lexer

/-- Whether a lexer stands behind a piece of the text that another one stands in front of. -/
structure Passes (lexer after : Lexer) (piece : List Char) : Prop where
  source : after.source = lexer.source
  mode : after.mode = lexer.mode
  rest : lexer.rest = piece ++ after.rest
  offset : after.offset = lexer.offset + byteLength piece

variable {lexer : Lexer} {c : Char} {rest : List Char} {finding : Finding} {n : Nat}

theorem pass_passes (front : lexer.rest = c :: rest) (positive : 0 < n) (finding : Finding) :
    lexer.Passes (lexer.pass (finding, n) c rest) ((c :: rest).take n) := by
  obtain ⟨m, rfl⟩ := Nat.exists_eq_add_of_lt positive
  refine ⟨rfl, rfl, ?_, ?_⟩
  · simp [pass, front]
  · simp [pass]

theorem errors_pass (lexer : Lexer) (c : Char) (rest : List Char) (positive : 0 < n) (finding : Finding) :
    (lexer.pass (finding, n) c rest).errors = lexer.record finding ((c :: rest).take n) := by
  obtain ⟨m, rfl⟩ := Nat.exists_eq_add_of_lt positive
  simp [pass]

theorem rest_pass (lexer : Lexer) (c : Char) (rest : List Char) (positive : 0 < n) (finding : Finding) :
    (lexer.pass (finding, n) c rest).rest = (c :: rest).drop n := by
  obtain ⟨m, rfl⟩ := Nat.exists_eq_add_of_lt positive
  simp [pass]

theorem Passes.settle {after : Lexer} {piece : List Char} (passes : lexer.Passes after piece) :
    lexer.Passes after.settle piece :=
  ⟨passes.source, passes.mode, passes.rest, passes.offset⟩

/-- What stands for no token is passed over. -/
theorem next_over (front : lexer.rest = c :: rest)
    (found : findingIn lexer.mode (c :: rest) = (finding, n)) (skipped : finding.tokenKind? = none) :
    lexer.next = (lexer.pass (finding, n) c rest).next := by
  rw [next_skip front (by rw [found]; exact skipped), found]

/-- What stands for a token is read as that token. -/
theorem next_token {kind : TokenKind} (front : lexer.rest = c :: rest)
    (found : findingIn lexer.mode (c :: rest) = (finding, n)) (positive : 0 < n)
    (taken : finding.tokenKind? = some kind) :
    lexer.next = (some ⟨kind, String.ofList ((c :: rest).take n),
        ⟨lexer.offset, lexer.offset + byteLength ((c :: rest).take n)⟩,
        (lexer.gap? lexer.offset).any breaksLine⟩,
      (lexer.pass (finding, n) c rest).settle) := by
  have here : (findingIn lexer.mode (c :: rest)).1.tokenKind? = some kind := by
    rw [found]
    exact taken
  have read := next_take front here
  rw [found] at read
  obtain ⟨m, rfl⟩ := Nat.exists_eq_add_of_lt positive
  exact read

end Lexer

end OpenCLTree

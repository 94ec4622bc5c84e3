import OpenCLTree.Grammar.Cursor

namespace OpenCLTree

/-- What a token does to the brackets it stands in: it opens one or closes one, it ends a
declaration, it marks a line of the preprocessor, or none of these. -/
inductive Turn
  | opens | closes | ends | marks | stays
  deriving DecidableEq

def TokenKind.turn : TokenKind → Turn
  | .punct .leftParen | .punct .leftBracket | .punct .leftBrace => .opens
  | .punct .rightParen | .punct .rightBracket | .punct .rightBrace => .closes
  | .punct .semicolon => .ends
  | .pragma | .directive => .marks
  | _ => .stays

namespace Word

/-- Whether some words close more brackets than the `depth` that are open in front of them.
Then no rule inside these brackets reads all of them. The words of a preprocessor line do not
count. In a `flat` stream, which has no braces, a semicolon stands outside of all brackets. -/
def closes (flat : Bool) : (inLine : Bool) → (depth : Nat) → List Word → Bool
  | _, _, [] => false
  | inLine, depth, word :: rest =>
    if inLine && !word.token.newlineBefore then closes flat true depth rest
    else
      match word.token.kind.turn, depth with
      | .opens, depth => closes flat false (depth + 1) rest
      | .closes, 0 => true
      | .closes, depth + 1 => closes flat false depth rest
      | .ends, depth => flat || closes flat false depth rest
      | .marks, depth => closes flat true depth rest
      | .stays, depth => closes flat false depth rest

variable {flat inLine : Bool} {depth : Nat} {word : Word} {rest words : List Word}

theorem closes_mono (more : closes flat inLine (depth + 1) words = true) :
    closes flat inLine depth words = true := by
  induction words generalizing inLine depth with
  | nil => cases more
  | cons word rest ih =>
    unfold closes at more ⊢
    split at more
    · rename_i skipped
      rw [if_pos skipped]
      exact ih more
    · rename_i read
      rw [if_neg read]
      cases turn : word.token.kind.turn with
      | opens | marks | stays =>
        simp only [turn] at more ⊢
        exact ih more
      | closes =>
        cases depth with
        | zero => rfl
        | succ depth =>
          simp only [turn] at more ⊢
          exact ih more
      | ends =>
        simp only [turn, Bool.or_eq_true] at more ⊢
        exact more.imp_right ih

/-- What a word outside of preprocessor lines does. -/
theorem closes_read (flat : Bool) (depth : Nat) (word : Word) (rest : List Word) :
    closes flat false depth (word :: rest) =
      match word.token.kind.turn, depth with
      | .opens, depth => closes flat false (depth + 1) rest
      | .closes, 0 => true
      | .closes, depth + 1 => closes flat false depth rest
      | .ends, depth => flat || closes flat false depth rest
      | .marks, depth => closes flat true depth rest
      | .stays, depth => closes flat false depth rest := by
  rw [closes.eq_def]
  rfl

theorem closes_opens (opens : word.token.kind.turn = .opens) :
    closes flat false depth (word :: rest) = closes flat false (depth + 1) rest := by
  rw [closes_read, opens]

theorem closes_closes (closing : word.token.kind.turn = .closes) :
    closes flat false (depth + 1) (word :: rest) = closes flat false depth rest := by
  rw [closes_read, closing]

theorem closes_here (closing : word.token.kind.turn = .closes) :
    closes flat false 0 (word :: rest) = true := by
  rw [closes_read, closing]

theorem closes_stays (stays : word.token.kind.turn = .stays) :
    closes flat false depth (word :: rest) = closes flat false depth rest := by
  rw [closes_read, stays]

theorem closes_ends (ends : word.token.kind.turn = .ends) :
    closes flat false depth (word :: rest) = (flat || closes flat false depth rest) := by
  rw [closes_read, ends]

theorem closes_marks (marks : word.token.kind.turn = .marks) :
    closes flat false depth (word :: rest) = closes flat true depth rest := by
  rw [closes_read, marks]

/-- A line of the preprocessor goes up to the next word on another line. -/
theorem closes_line (flat : Bool) (depth : Nat) (words : List Word) :
    closes flat true depth words =
      closes flat false depth (words.dropWhile (!·.token.newlineBefore)) := by
  induction words with
  | nil => rfl
  | cons word rest ih =>
    cases newline : word.token.newlineBefore with
    | false =>
      rw [List.dropWhile_cons_of_pos (by simp [newline]), ← ih]
      conv => enter [1]; unfold closes
      simp [newline]
    | true =>
      rw [List.dropWhile_cons_of_neg (by simp [newline])]
      unfold closes
      simp [newline]

/-- In a flat stream a semicolon is enough. -/
theorem closes_of_ends (plain : ∀ word ∈ words, word.token.kind.turn ≠ .marks)
    (ends : ∃ word ∈ words, word.token.kind.turn = .ends) :
    closes true false depth words = true := by
  induction words generalizing depth with
  | nil =>
    obtain ⟨_, member, _⟩ := ends
    cases member
  | cons word rest ih =>
    obtain ⟨here, later⟩ := List.forall_mem_cons.mp plain
    have goesOn (depth : Nat) (other : word.token.kind.turn ≠ .ends) :
        closes true false depth rest = true := by
      obtain ⟨last, member, atLast⟩ := ends
      rcases List.mem_cons.mp member with rfl | inside
      · exact absurd atLast other
      · exact ih later ⟨last, inside, atLast⟩
    cases turn : word.token.kind.turn with
    | opens =>
      rw [closes_opens turn]
      exact goesOn _ (by simp [turn])
    | closes =>
      cases depth with
      | zero => exact closes_here turn
      | succ depth =>
        rw [closes_closes turn]
        exact goesOn _ (by simp [turn])
    | ends =>
      rw [closes_ends turn]
      rfl
    | marks => exact absurd turn here
    | stays =>
      rw [closes_stays turn]
      exact goesOn _ (by simp [turn])

/-- A single opening bracket closes nothing. -/
theorem closes_single (opens : word.token.kind.turn = .opens) :
    closes flat false depth [word] = false := by
  rw [closes_opens opens]
  rfl

end Word

end OpenCLTree

import OpenCLTree.Proofs.Lexical.Stream
import Mathlib.Data.List.TakeWhile

namespace OpenCLTree

open Pattern

/-- The characters that may stand between tokens. -/
def spaces : List Char := [' ', '\t', '\r', '\n', '\x0c', '\x0b']

def isSpace (c : Char) : Bool :=
  spaces.contains c

variable {text rest : List Char} {c : Char}

namespace TokenRule

theorem starts_blanks (c : Char) : blanks.starts c = isSpace c := by
  simp [blanks, atLeastOnce, oneOf, starts, nullable, isSpace, spaces]

theorem matches_spaces : (many (oneOf spaces)).Matches text ↔ ∀ c ∈ text, isSpace c = true :=
  matches_many_one

theorem matches_blanks : blanks.Matches (c :: rest) ↔ ∀ d ∈ c :: rest, isSpace d = true := by
  rw [← matches_spaces, matches_many_cons, blanks, atLeastOnce, matches_seq_cons]
  have single : ¬ (oneOf spaces).Matches [] := by simp [oneOf]
  exact or_iff_left fun both => single both.1

/-- No other rule reads a space. -/
theorem filter_space (space : isSpace c = true) :
    all.filter (·.pattern.starts c) = [⟨.blank, blanks⟩] := by
  simp only [isSpace, spaces, List.contains_eq_mem, List.mem_cons, List.not_mem_nil, or_false,
    decide_eq_true_eq] at space
  rcases space with rfl | rfl | rfl | rfl | rfl | rfl <;> rfl

/-- Spaces are read together, up to the next character that is none. -/
theorem longest?_space (space : isSpace c = true) :
    longest? (c :: rest) = some (.blank, 1 + (rest.takeWhile isSpace).length) := by
  have only (rule : TokenRule) (member : rule ∈ all) {tail : List Char}
      (found : rule.pattern.Matches (c :: tail)) : rule = ⟨.blank, blanks⟩ := by
    have starts : rule ∈ all.filter (·.pattern.starts c) :=
      List.mem_filter.mpr ⟨member, found.starts⟩
    rwa [filter_space space, List.mem_singleton] at starts
  have run : (c :: rest).take (1 + (rest.takeWhile isSpace).length) =
      c :: rest.takeWhile isSpace := by
    rw [Nat.add_comm, List.take_succ_cons]
    exact congrArg _ (List.prefix_iff_eq_take.mp (List.takeWhile_prefix isSpace)).symm
  refine longest?_eq_some.mpr ⟨by omega, ?_, ?_, ?_⟩
  · have shorter := (List.takeWhile_prefix (l := rest) isSpace).length_le
    rw [List.length_cons]
    omega
  · rw [run]
    cases first : firstMatch? all (c :: rest.takeWhile isSpace) with
    | none =>
      have listed : (⟨.blank, blanks⟩ : TokenRule) ∈ all := by simp [all]
      refine absurd ?_ (firstMatch?_eq_none.mp first _ listed)
      refine matches_blanks.mpr (List.forall_mem_cons.mpr ⟨space, fun d member => ?_⟩)
      exact List.mem_takeWhile_imp member
    | some recognized =>
      obtain ⟨rule, member, rfl, found⟩ := mem_of_firstMatch? first
      rw [only rule member found]
  · intro m longer within
    rw [firstMatch?_eq_none]
    intro rule member found
    obtain ⟨k, rfl⟩ := Nat.exists_eq_succ_of_ne_zero (show m ≠ 0 by omega)
    rw [List.take_succ_cons] at found
    rw [only rule member found, matches_blanks] at found
    have split : rest.takeWhile isSpace = rest.take k ++ (rest.drop k).takeWhile isSpace := by
      rw [← List.takeWhile_append_of_pos (List.forall_mem_cons.mp found).2, List.take_append_drop]
    have length := congrArg List.length split
    rw [List.length_append, List.length_take] at length
    rw [List.length_cons] at within
    omega

end TokenRule

theorem irregular?_space (space : isSpace c = true) : irregular? (c :: rest) = none := by
  simp only [isSpace, spaces, List.contains_eq_mem, List.mem_cons, List.not_mem_nil, or_false,
    decide_eq_true_eq] at space
  rcases space with rfl | rfl | rfl | rfl | rfl | rfl <;> rfl

theorem findingAt_space (space : isSpace c = true) :
    findingAt (c :: rest) = (.trivia, 1 + (rest.takeWhile isSpace).length) := by
  rw [findingAt, irregular?_space space, TokenRule.longest?_space space]
  rfl

namespace Lexer

variable {lexer : Lexer}

/-- The lexer after the piece in front of it. -/
def pass (lexer : Lexer) (found : Finding × Nat) (c : Char) (rest : List Char) : Lexer :=
  { lexer with
    offset := lexer.offset + byteLength (c :: rest.take (found.2 - 1))
    rest := rest.drop (found.2 - 1)
    errors := lexer.record found.1 (c :: rest.take (found.2 - 1)) }

theorem next_skip (front : lexer.rest = c :: rest)
    (skipped : (findingIn lexer.mode (c :: rest)).1.tokenKind? = none) :
    lexer.next = (lexer.pass (findingIn lexer.mode (c :: rest)) c rest).next := by
  rw [next]
  split
  · rename_i ended
    cases ended.symm.trans front
  · rename_i d others here
    obtain ⟨rfl, rfl⟩ := List.cons.inj (here.symm.trans front)
    simp only [skipped]
    rfl

/-- A lexer that takes what it has passed for a token. -/
def settle (lexer : Lexer) : Lexer :=
  { lexer with lastEnd := lexer.offset, since := some lexer.rest }

theorem next_take {kind : TokenKind} (front : lexer.rest = c :: rest)
    (taken : (findingIn lexer.mode (c :: rest)).1.tokenKind? = some kind) :
    let after := lexer.pass (findingIn lexer.mode (c :: rest)) c rest
    lexer.next = (some ⟨kind,
        String.ofList (c :: rest.take ((findingIn lexer.mode (c :: rest)).2 - 1)),
        ⟨lexer.offset, after.offset⟩, (lexer.gap? lexer.offset).any breaksLine⟩,
      after.settle) := by
  rw [next]
  split
  · rename_i ended
    cases ended.symm.trans front
  · rename_i d others here
    obtain ⟨rfl, rfl⟩ := List.cons.inj (here.symm.trans front)
    simp only [taken]
    rfl

/-- A lexer that has passed the spaces in front of it. -/
def pastSpaces (lexer : Lexer) : Lexer :=
  { lexer with
    offset := lexer.offset + byteLength (lexer.rest.takeWhile isSpace)
    rest := lexer.rest.dropWhile isSpace }

/-- Spaces in front of a token change nothing about it. -/
theorem next_pastSpaces (normal : lexer.mode = .normal) : lexer.pastSpaces.next = lexer.next := by
  obtain ⟨source, mode, offset, text, lastEnd, since, errors⟩ := lexer
  dsimp only at normal
  subst normal
  cases text with
  | nil => rfl
  | cons c rest =>
    by_cases space : isSpace c = true
    · have found : findingIn .normal (c :: rest) = _ := findingAt_space space
      have split := List.takeWhile_append_dropWhile (p := isSpace) (l := rest)
      have run : rest.take (rest.takeWhile isSpace).length = rest.takeWhile isSpace :=
        (List.prefix_iff_eq_take.mp (List.takeWhile_prefix isSpace)).symm
      have tail : rest.drop (rest.takeWhile isSpace).length = rest.dropWhile isSpace := by
        refine (List.append_right_inj (rest.takeWhile isSpace)).mp (Eq.trans ?_ split.symm)
        exact (congrArg (· ++ _) run.symm).trans (List.take_append_drop _ rest)
      symm
      rw [next_skip rfl (by rw [found]; rfl), found]
      simp only [pass, pastSpaces, List.takeWhile_cons_of_pos space,
        List.dropWhile_cons_of_pos space, Nat.add_sub_cancel_left, run, tail, record, Finding.error?]
    · simp only [pastSpaces, List.takeWhile_cons_of_neg space, List.dropWhile_cons_of_neg space]
      rfl

end Lexer

end OpenCLTree

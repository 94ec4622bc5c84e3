import OpenCLTree.Proofs.Lexical.Pattern
import OpenCLTree.Lexical.TokenRule

namespace OpenCLTree

namespace Pattern

instance decidableMatches : (pattern : Pattern) → (text : List Char) → Decidable (pattern.Matches text)
  | pattern, [] => decidable_of_iff _ (nullable_iff pattern)
  | pattern, c :: rest =>
    have := decidableMatches (pattern.derivative c) rest
    decidable_of_iff _ matches_derivative

end Pattern

namespace TokenRule

variable {rules : List TokenRule} {text : List Char} {found : Recognized} {n : Nat}

/-- What the first of some rules that matches a whole text recognizes. -/
def firstMatch? (rules : List TokenRule) (text : List Char) : Option Recognized :=
  (rules.find? fun rule => decide (rule.pattern.Matches text)).map (·.recognized)

theorem firstMatch?_eq_none :
    firstMatch? rules text = none ↔ ∀ rule ∈ rules, ¬ rule.pattern.Matches text := by
  simp [firstMatch?]

theorem mem_of_firstMatch? (first : firstMatch? rules text = some found) :
    ∃ rule ∈ rules, rule.recognized = found ∧ rule.pattern.Matches text := by
  obtain ⟨rule, atRule, rfl⟩ := Option.map_eq_some_iff.mp first
  exact ⟨rule, List.mem_of_find?_eq_some atRule, rfl, by simpa using List.find?_some atRule⟩

theorem firstMatch?_append (front back : List TokenRule) (text : List Char) :
    firstMatch? (front ++ back) text = (firstMatch? front text).or (firstMatch? back text) := by
  rw [firstMatch?, List.find?_append, Option.map_or, firstMatch?, firstMatch?]

/-- Rules that all recognize the same do so if one of them matches. -/
theorem firstMatch?_of_same (same : ∀ rule ∈ rules, rule.recognized = found) {rule : TokenRule}
    (member : rule ∈ rules) (matched : rule.pattern.Matches text) :
    firstMatch? rules text = some found := by
  cases first : firstMatch? rules text with
  | none => exact absurd matched (firstMatch?_eq_none.mp first rule member)
  | some other =>
    obtain ⟨earlier, listed, rfl, _⟩ := mem_of_firstMatch? first
    rw [same earlier listed]

/-- The rules left after a character stand for the rules there were, for what follows it. -/
theorem firstMatch?_advance (c : Char) (rules : List TokenRule) (rest : List Char) :
    firstMatch? (advance c rules) rest = firstMatch? rules (c :: rest) := by
  have alive (rule : TokenRule) :
      ((!(rule.pattern.derivative c).isNever) = true ∧ (rule.pattern.derivative c).Matches rest) ↔
        rule.pattern.Matches (c :: rest) := by
    rw [Pattern.matches_derivative, and_iff_right_iff_imp, Bool.not_eq_true']
    intro matched
    rw [← Pattern.matches_derivative] at matched
    exact Bool.eq_false_iff.mpr fun never => Pattern.not_matches_of_isNever never rest matched
  unfold firstMatch? advance
  rw [List.find?_filter, List.find?_map]
  simp only [Function.comp_def, decide_eq_true_eq, alive, Option.map_map]

theorem complete?_eq (rules : List TokenRule) : complete? rules = firstMatch? rules [] := by
  have same : (fun rule : TokenRule => rule.pattern.nullable) =
      fun rule => decide (rule.pattern.Matches []) := by
    funext rule
    rw [Bool.eq_iff_iff, decide_eq_true_eq, Pattern.nullable_iff]
  rw [complete?, firstMatch?, same]

/-- Whether `n` is the length of the longest nonempty match at the head of a text, and `found`
what the first rule that matches so far recognizes. -/
structure IsLongest (rules : List TokenRule) (text : List Char) (found : Recognized) (n : Nat) :
    Prop where
  positive : 0 < n
  within : n ≤ text.length
  first : firstMatch? rules (text.take n) = some found
  noLonger : ∀ m, n < m → m ≤ text.length → firstMatch? rules (text.take m) = none

theorem IsLongest.unique {other : Recognized} {m : Nat} (one : IsLongest rules text found n)
    (two : IsLongest rules text other m) : found = other ∧ n = m := by
  obtain less | rfl | greater := Nat.lt_trichotomy n m
  · cases (one.noLonger m less two.within).symm.trans two.first
  · exact ⟨Option.some.inj (one.first.symm.trans two.first), rfl⟩
  · cases (two.noLonger n greater one.within).symm.trans one.first

theorem longestFrom_nil (taken : Nat) (best : Option (Recognized × Nat)) (text : List Char) :
    longestFrom [] taken best text = best := by
  cases text <;> rfl

theorem longestFrom_cons (rules : List TokenRule) (taken : Nat) (best : Option (Recognized × Nat))
    (c : Char) (rest : List Char) :
    longestFrom rules taken best (c :: rest) =
      longestFrom (advance c rules) (taken + 1)
        (((firstMatch? rules [c]).map fun found => (found, taken + 1)).or best) rest := by
  rw [← firstMatch?_advance, ← complete?_eq, longestFrom]
  cases advance c rules with
  | nil => exact (longestFrom_nil _ _ rest).symm
  | cons rule others =>
    dsimp only
    cases complete? (rule :: others) <;> rfl

/-- The search keeps the best match so far unless it finds the longest match of its rules. -/
theorem longestFrom_spec (rules : List TokenRule) (taken : Nat) (best : Option (Recognized × Nat))
    (text : List Char) :
    (longestFrom rules taken best text = best ∧
      ∀ n, 0 < n → n ≤ text.length → firstMatch? rules (text.take n) = none) ∨
    ∃ found n, IsLongest rules text found n ∧
      longestFrom rules taken best text = some (found, taken + n) := by
  induction text generalizing rules taken best with
  | nil =>
    refine .inl ⟨rfl, fun n positive within => ?_⟩
    exact absurd positive (Nat.not_lt.mpr within)
  | cons c rest ih =>
    have shift (n : Nat) : firstMatch? (advance c rules) (rest.take n) =
        firstMatch? rules ((c :: rest).take (n + 1)) := by
      rw [firstMatch?_advance, List.take_succ_cons]
    rw [longestFrom_cons]
    obtain ⟨kept, without⟩ | ⟨found, n, longest, result⟩ := ih (advance c rules) (taken + 1) _
    · have noLonger (n : Nat) (longer : 1 < n) (within : n ≤ (c :: rest).length) :
          firstMatch? rules ((c :: rest).take n) = none := by
        obtain ⟨m, rfl⟩ := Nat.exists_eq_add_of_lt longer
        rw [Nat.add_comm 1 m, ← shift]
        exact without (m + 1) (Nat.succ_pos m) (by simp only [List.length_cons] at within; omega)
      rw [kept]
      cases here : firstMatch? rules [c] with
      | none =>
        refine .inl ⟨rfl, fun n positive within => ?_⟩
        obtain rfl | longer := Nat.eq_or_lt_of_le (Nat.succ_le_of_lt positive)
        · exact here
        · exact noLonger n longer within
      | some found => exact .inr ⟨found, 1, ⟨Nat.one_pos, by simp, here, noLonger⟩, rfl⟩
    · refine .inr ⟨found, n + 1, ⟨Nat.succ_pos n, ?_, ?_, ?_⟩, ?_⟩
      · exact Nat.succ_le_succ longest.within
      · rw [← shift]
        exact longest.first
      · intro m longer within
        obtain ⟨m, rfl⟩ := Nat.exists_eq_succ_of_ne_zero (Nat.ne_of_gt (Nat.zero_lt_of_lt longer))
        rw [← shift]
        exact longest.noLonger m (Nat.lt_of_succ_lt_succ longer) (Nat.le_of_succ_le_succ within)
      · rw [result, Nat.add_assoc, Nat.add_comm 1 n]

theorem longest?_eq_some : longest? text = some (found, n) ↔ IsLongest all text found n := by
  have spec := longestFrom_spec all 0 none text
  constructor
  · intro result
    obtain ⟨nothing, _⟩ | ⟨other, m, longest, atText⟩ := spec
    · cases nothing.symm.trans result
    · obtain ⟨rfl, rfl⟩ : other = found ∧ m = n := by
        simpa using atText.symm.trans result
      exact longest
  · intro longest
    obtain ⟨_, without⟩ | ⟨other, m, found, atText⟩ := spec
    · cases (without n longest.positive longest.within).symm.trans longest.first
    · obtain ⟨rfl, rfl⟩ := found.unique longest
      simpa [longest?] using atText

end TokenRule

end OpenCLTree

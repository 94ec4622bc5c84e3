import OpenCLTree.Proofs.Lexical.Irregular
import OpenCLTree.Proofs.Lexical.LineFeed
import OpenCLTree.Proofs.Lexical.Priority

namespace OpenCLTree

open Pattern

/-- What is recognized at the head of a text: no rule matches a longer front of it, and a rule that
matches the same front gives way. -/
structure Munch (text lexeme : List Char) (found : Recognized) : Prop where
  leads : lexeme <+: text
  matched : ∃ rule ∈ TokenRule.all, rule.recognized = found ∧ rule.pattern.Matches lexeme
  longest : ∀ rule ∈ TokenRule.all, ∀ front, front <+: text → rule.pattern.Matches front →
    front.length ≤ lexeme.length
  preferred : ∀ rule ∈ TokenRule.all, rule.pattern.Matches lexeme → rule.recognized.GivesWay found

variable {text lexeme other : List Char} {found recognized : Recognized} {n : Nat}

theorem Recognized.GivesWay.antisymm (one : found.GivesWay recognized)
    (two : recognized.GivesWay found) : found = recognized := by
  rcases one with same | outranked
  · exact same
  rcases two with same | outranks
  · exact same.symm
  unfold Recognized.outranks at outranks outranked
  split at outranks <;> cases outranks <;> cases outranked

/-- The rules leave no choice. -/
theorem Munch.unique (one : Munch text lexeme found) (two : Munch text other recognized) :
    lexeme = other ∧ found = recognized := by
  obtain ⟨rule, member, rfl, matched⟩ := one.matched
  obtain ⟨rule', member', rfl, matched'⟩ := two.matched
  have length : lexeme.length = other.length :=
    Nat.le_antisymm (two.longest rule member lexeme one.leads matched)
      (one.longest rule' member' other two.leads matched')
  obtain rfl : lexeme = other :=
    (List.prefix_of_prefix_length_le one.leads two.leads length.le).eq_of_length length
  exact ⟨rfl, (two.preferred rule member matched).antisymm (one.preferred rule' member' matched')⟩

namespace TokenRule

/-- No rule matches nothing. -/
theorem all_nonempty : ∀ rule ∈ all, rule.pattern.nullable = false := by
  decide +kernel

theorem firstMatch?_nil : firstMatch? all [] = none := by
  refine firstMatch?_eq_none.mpr fun rule member matched => ?_
  cases (all_nonempty rule member).symm.trans ((nullable_iff _).mpr matched)

theorem munch_of_longest? (longest : longest? text = some (found, n)) :
    Munch text (text.take n) found := by
  have isLongest := longest?_eq_some.mp longest
  refine ⟨List.take_prefix n text, mem_of_firstMatch? isLongest.first, ?_, ?_⟩
  · intro rule member front leads matched
    rw [List.length_take_of_le isLongest.within]
    by_contra longer
    rw [Nat.not_le] at longer
    have none := isLongest.noLonger front.length longer leads.length_le
    rw [← List.prefix_iff_eq_take.mp leads] at none
    exact firstMatch?_eq_none.mp none rule member matched
  · exact fun rule member matched => givesWay_of_firstMatch? isLongest.first member matched

/-- Where nothing is found no rule matches any front of the text. -/
theorem not_matches_of_longest? (nothing : longest? text = none) :
    ∀ rule ∈ all, ∀ front, front <+: text → ¬ rule.pattern.Matches front := by
  intro rule member front leads
  have none : firstMatch? all front = none := by
    cases front with
    | nil => exact firstMatch?_nil
    | cons c front =>
      obtain ⟨_, without⟩ | ⟨found, n, longest, _⟩ := longestFrom_spec all 0 none text
      · rw [List.prefix_iff_eq_take.mp leads]
        exact without _ (Nat.succ_pos _) leads.length_le
      · cases nothing.symm.trans (longest?_eq_some.mpr longest)
  exact firstMatch?_eq_none.mp none rule member

theorem filter_commentOpening : all.filter (·.recognized = .commentOpening) =
    [⟨.commentOpening, Pattern.text ['/', '*']⟩] :=
  rfl

theorem eq_of_commentOpening (munch : Munch text lexeme .commentOpening) : lexeme = ['/', '*'] := by
  obtain ⟨rule, member, opening, matched⟩ := munch.matched
  have only : rule ∈ all.filter (·.recognized = .commentOpening) :=
    List.mem_filter.mpr ⟨member, decide_eq_true opening⟩
  rw [filter_commentOpening, List.mem_singleton] at only
  rw [only] at matched
  exact matches_text.mp matched

end TokenRule

/-- A block comment ends with the first mark that can end it. -/
theorem commentExtent?_eq_some (closed : commentExtent? text = some n) :
    ∃ body tail, text = body ++ ['*', '/'] ++ tail ∧ n = body.length + 2 ∧
      ¬ ['*', '/'] <:+: body ++ ['*'] := by
  fun_induction commentExtent? text generalizing n with
  | case1 tail =>
    obtain rfl := Option.some.inj closed
    refine ⟨[], tail, rfl, rfl, fun within => ?_⟩
    simpa using within.length_le
  | case2 c rest other ih =>
    obtain ⟨m, later, rfl⟩ := Option.map_eq_some_iff.mp closed
    obtain ⟨body, tail, rfl, rfl, first⟩ := ih later
    refine ⟨c :: body, tail, rfl, rfl, fun within => ?_⟩
    rcases List.infix_cons_iff.mp within with leads | within
    · obtain ⟨rfl, next⟩ := List.cons_prefix_cons.mp leads
      cases body with
      | nil => simp at next
      | cons d body =>
        have slash : '/' = d := (List.cons_prefix_cons.mp next).1
        exact other _ rfl (by rw [slash]; rfl)
    · exact first within
  | case3 => cases closed

/-- A block comment that does not end has no mark that could end it. -/
theorem commentExtent?_eq_none (unclosed : commentExtent? text = none) :
    ¬ ['*', '/'] <:+: text := by
  fun_induction commentExtent? text with
  | case1 => cases unclosed
  | case2 c rest other ih =>
    intro within
    rcases List.infix_cons_iff.mp within with leads | within
    · obtain ⟨rfl, tail, rfl⟩ := List.cons_prefix_cons.mp leads
      exact other _ rfl rfl
    · exact ih (Option.map_eq_none_iff.mp unclosed) within
  | case3 => simp

theorem judge_token {kind : TokenKind} (n : Nat) (text : List Char)
    (stands : found.tokenKind? = some kind) :
    ∃ finding, judge found n text = (finding, n) ∧ finding.tokenKind? = some kind := by
  cases found with
  | token => exact ⟨_, rfl, stands⟩
  | quotation =>
    rw [judge]
    split <;> exact ⟨_, rfl, stands⟩
  | openQuotation => exact ⟨_, rfl, stands⟩
  | blank | lineComment | commentOpening => cases stands

end OpenCLTree

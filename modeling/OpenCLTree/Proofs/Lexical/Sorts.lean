import OpenCLTree.Proofs.Lexical.Accessor
import OpenCLTree.Proofs.Lexical.Space

namespace OpenCLTree

open Pattern

namespace Recognized

/-- The rules that look alike at first sight have one sort. -/
def sort : Recognized → Recognized
  | .token (.qualifier _) | .token (.keyword _) => .token .identifier
  | .token .pragma => .token .directive
  | .token (.punct _) => .token (.punct .hash)
  | .openQuotation kind => .quotation kind
  | other => other

/-- The sorts of a single thing to recognize. -/
def isPlain : Recognized → Bool
  | .blank | .lineComment | .commentOpening | .token .number => true
  | _ => false

theorem eq_of_sort {one two : Recognized} (plain : two.isPlain = true) (alike : one.sort = two.sort) :
    one = two := by
  unfold isPlain at plain
  split at plain
  case h_5 => cases plain
  all_goals
    unfold sort at alike
    split at alike <;> first | exact alike | cases alike

theorem token_of_sort {found : Recognized} (alike : found.sort = .token .identifier) :
    ∃ kind, found = .token kind := by
  unfold sort at alike
  split at alike
  · exact ⟨_, rfl⟩
  · exact ⟨_, rfl⟩
  · cases alike
  · cases alike
  · cases alike
  · exact ⟨_, alike⟩

end Recognized

def isQuote (c : Char) : Bool :=
  c == '"' || c == '\''

namespace TokenRule

variable {rules : List TokenRule} {rule other : TokenRule} {text rest : List Char} {c : Char}
  {found : Recognized}

/-- The sort of rules that can match a whole text, as its first characters and its first quote
tell. -/
def sortOf : List Char → Recognized
  | [] => .blank
  | c :: rest =>
    if isSpace c || c == '\\' then .blank
    else if c == '#' then
      if rest.any isWordStart then .token .directive else .token (.punct .hash)
    else if c == '/' then
      if rest.head? = some '/' then .lineComment
      else if rest.head? = some '*' then .commentOpening
      else .token (.punct .hash)
    else if c.isDigit || (c == '.' && rest.head?.any Char.isDigit) then .token .number
    else
      match (c :: rest).find? isQuote with
      | some quote => .quotation (if quote = '"' then .string else .character)
      | none => if isWordStart c then .token .identifier else .token (.punct .hash)

theorem isQuote_of_isWordChar (worded : isWordChar c = true) : isQuote c = false := by
  rw [Bool.eq_false_iff]
  intro quote
  simp only [isQuote, Bool.or_eq_true, beq_iff_eq] at quote
  rcases quote with rfl | rfl <;> cases worded

theorem special_of_isWordChar (worded : isWordChar c = true) :
    isSpace c = false ∧ c ≠ '\\' ∧ c ≠ '#' ∧ c ≠ '/' ∧ c ≠ '.' := by
  have others (d : Char) (other : isWordChar d = false) : c ≠ d := by
    rintro rfl
    cases other.symm.trans worded
  refine ⟨?_, others _ rfl, others _ rfl, others _ rfl, others _ rfl⟩
  rw [Bool.eq_false_iff]
  intro space
  simp only [isSpace, spaces, List.contains_eq_mem, List.mem_cons, List.not_mem_nil, or_false,
    decide_eq_true_eq] at space
  rcases space with rfl | rfl | rfl | rfl | rfl | rfl <;> cases worded

/-- What consists of the characters of words and begins like a word is one. -/
theorem sortOf_word (start : isWordStart c = true) (worded : ∀ d ∈ c :: rest, isWordChar d = true) :
    sortOf (c :: rest) = .token .identifier := by
  have digit : c.isDigit = false := by
    rw [Bool.eq_false_iff]
    intro digit
    cases (isWordStart_of_isDigit digit).symm.trans start
  have noQuote : (c :: rest).find? isQuote = none :=
    List.find?_eq_none.mpr fun d member =>
      Bool.eq_false_iff.mp (isQuote_of_isWordChar (worded d member))
  simp [sortOf, special_of_isWordChar (worded c List.mem_cons_self), digit, noQuote, start]

theorem sortOf_digit (digit : c.isDigit = true) : sortOf (c :: rest) = .token .number := by
  have worded : isWordChar c = true := by simp [isWordChar, Char.isAlphanum, digit]
  simp [sortOf, special_of_isWordChar worded, digit]

theorem aliases_sort : ∀ entry ∈ Qualifier.aliases,
    sortOf entry.1.toList = .token .identifier := by
  decide +kernel

theorem spellings_sort : ∀ entry ∈ Keyword.spellings,
    sortOf entry.1.toList = .token .identifier := by
  decide +kernel

theorem punctuators_sort : ∀ mark ∈ Punctuator.all,
    sortOf mark.spelling.toList = .token (.punct .hash) := by
  decide +kernel

theorem sortOf_number (listed : rule ∈ numberRules) (matched : rule.pattern.Matches text) :
    sortOf text = .token .number := by
  have hexadecimal {body : Pattern} (matched : (seq hexMark body).Matches text) :
      sortOf text = .token .number := by
    obtain ⟨mark, _, rfl, marked, _⟩ := matches_seq.mp matched
    obtain ⟨zero, x, rfl, atZero, _⟩ := matches_seq.mp marked
    rw [matches_char.mp atZero]
    exact sortOf_digit rfl
  have decimal {body : Pattern} (matched : (seq digits body).Matches text) :
      sortOf text = .token .number := by
    obtain ⟨_, _, rfl, whole, _⟩ := matches_seq.mp matched
    obtain ⟨_, _, rfl, first, _⟩ := matches_seq.mp whole
    obtain ⟨c, digit, rfl⟩ := matches_one.mp first
    exact sortOf_digit digit
  simp only [numberRules, List.map_cons, List.map_nil, List.mem_cons, List.not_mem_nil,
    or_false] at listed
  rcases listed with rfl | rfl | rfl | rfl | rfl | rfl
  · exact hexadecimal matched
  · exact hexadecimal matched
  · exact decimal matched
  · exact decimal matched
  · obtain ⟨point, _, rfl, atPoint, fraction⟩ := matches_seq.mp matched
    obtain ⟨_, _, rfl, whole, _⟩ := matches_seq.mp fraction
    obtain ⟨_, _, rfl, first, _⟩ := matches_seq.mp whole
    obtain ⟨c, digit, rfl⟩ := matches_one.mp first
    rw [matches_char.mp atPoint]
    simp [sortOf, isSpace, spaces, digit]
  · exact decimal matched

theorem stringOpening_cases {opening : List Char} (opens : stringOpening.Matches opening) :
    ∃ front, opening = front ++ ['"'] ∧ (front = [] ∨ front = ['L'] ∨ front = ['u', '8']) := by
  obtain ⟨front, quote, rfl, marked, quoted⟩ := matches_seq.mp opens
  rw [matches_char.mp quoted]
  refine ⟨front, rfl, ?_⟩
  rcases matches_either.mp marked with unmarked | letters
  · exact .inl (matches_empty.mp unmarked)
  · exact .inr ((matches_either.mp letters).imp matches_char.mp matches_text.mp)

theorem charOpening_cases {opening : List Char} (opens : charOpening.Matches opening) :
    ∃ front, opening = front ++ ['\''] ∧ (front = [] ∨ front = ['L']) := by
  obtain ⟨front, quote, rfl, marked, quoted⟩ := matches_seq.mp opens
  rw [matches_char.mp quoted]
  refine ⟨front, rfl, ?_⟩
  exact (matches_either.mp marked).imp matches_empty.mp matches_char.mp

theorem sortOf_string {body : Pattern} (matched : (seq stringOpening body).Matches text) :
    sortOf text = .quotation .string := by
  obtain ⟨_, _, rfl, opens, _⟩ := matches_seq.mp matched
  obtain ⟨_, rfl, rfl | rfl | rfl⟩ := stringOpening_cases opens <;> rfl

theorem sortOf_character {body : Pattern} (matched : (seq charOpening body).Matches text) :
    sortOf text = .quotation .character := by
  obtain ⟨_, _, rfl, opens, _⟩ := matches_seq.mp matched
  obtain ⟨_, rfl, rfl | rfl⟩ := charOpening_cases opens <;> rfl

theorem sortOf_directive {name : Pattern} (matched : (directiveWord name).Matches text)
    (named : ∀ w, name.Matches w → w.any isWordStart = true) :
    sortOf text = .token .directive := by
  obtain ⟨hash, _, rfl, atHash, others⟩ := matches_seq.mp matched
  obtain ⟨blanks, word, rfl, _, worded⟩ := matches_seq.mp others
  rw [matches_char.mp atHash, List.singleton_append, sortOf, List.any_append, named word worded,
    Bool.or_true]
  rfl

/-- A text has the sort of every rule that matches it. -/
theorem sortOf_of_matches (member : rule ∈ all) (matched : rule.pattern.Matches text) :
    sortOf text = rule.recognized.sort := by
  simp only [all, List.mem_append, List.mem_cons, List.mem_map, List.not_mem_nil, or_false] at member
  rcases member with (((((rfl | rfl) | ⟨entry, listed, rfl⟩) | ⟨entry, listed, rfl⟩) | special) |
    ⟨mark, listed, rfl⟩) | rfl | rfl
  · obtain ⟨_, _, rfl, first, _⟩ := matches_seq.mp matched
    obtain ⟨c, space, rfl⟩ := matches_one.mp first
    have space : isSpace c = true := space
    simp [sortOf, space, Recognized.sort]
  · obtain ⟨_, _, rfl, first, _⟩ := matches_seq.mp matched
    rw [matches_char.mp first]
    rfl
  · rw [matches_text.mp matched]
    exact aliases_sort entry listed
  · rw [matches_text.mp matched]
    exact spellings_sort entry listed
  · rcases special with rfl | rfl | rfl | rfl | rfl | rfl | rfl | rfl | rfl | rfl | rfl | rfl | rfl | rfl
    · obtain ⟨c, rest, rfl⟩ := List.exists_cons_of_ne_nil (ne_nil_of_matches matched rfl)
      exact sortOf_word (starts_vectorName matched.starts) (vectorName_word matched)
    · obtain ⟨c, rest, rfl⟩ := List.exists_cons_of_ne_nil (ne_nil_of_matches matched rfl)
      exact sortOf_word (by simpa [word, starts, nullable] using matched.starts) (word_word matched)
    · exact sortOf_number (by simp [numberRules]) matched
    · exact sortOf_number (by simp [numberRules]) matched
    · exact sortOf_number (by simp [numberRules]) matched
    · exact sortOf_number (by simp [numberRules]) matched
    · exact sortOf_number (by simp [numberRules]) matched
    · exact sortOf_number (by simp [numberRules]) matched
    · exact sortOf_string matched
    · exact sortOf_string matched
    · exact sortOf_character matched
    · exact sortOf_character matched
    · exact sortOf_directive matched fun w named => by rw [matches_text.mp named]; rfl
    · refine sortOf_directive matched fun w named => ?_
      obtain ⟨_, _, rfl, first, _⟩ := matches_seq.mp named
      obtain ⟨c, start, rfl⟩ := matches_one.mp first
      rw [List.singleton_append, List.any_cons, start, Bool.true_or]
  · rw [matches_text.mp matched]
    exact punctuators_sort mark listed
  · obtain ⟨_, _, rfl, opens, _⟩ := matches_seq.mp matched
    rw [matches_text.mp opens]
    rfl
  · rw [matches_text.mp matched]
    rfl

/-- Only the rules of its sort count for a text. -/
theorem firstMatch?_sort (text : List Char) :
    firstMatch? all text = firstMatch? (all.filter (·.recognized.sort = sortOf text)) text := by
  have counts (rule : TokenRule) (member : rule ∈ all) :
      decide (rule.pattern.Matches text) =
        (decide (rule.recognized.sort = sortOf text) && decide (rule.pattern.Matches text)) := by
    rw [Bool.eq_iff_iff, Bool.and_eq_true, decide_eq_true_eq, decide_eq_true_eq, iff_and_self]
    exact fun matched => (sortOf_of_matches member matched).symm
  rw [firstMatch?, firstMatch?, ← List.head?_filter, ← List.head?_filter, List.filter_filter,
    List.filter_congr counts]
  simp only [Bool.and_comm]

end TokenRule

end OpenCLTree

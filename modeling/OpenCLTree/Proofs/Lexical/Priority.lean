import OpenCLTree.Proofs.Lexical.Sorts

namespace OpenCLTree

open Pattern

namespace Recognized

/-- Whether a rule is preferred to another one that matches just as far. -/
def outranks : Recognized → Recognized → Bool
  | .token (.qualifier _), .token .identifier => true
  | .token (.keyword _), .token .identifier => true
  | .token .pragma, .token .directive => true
  | _, _ => false

/-- Whether a rule gives way to another one that matches just as far. -/
def GivesWay (one other : Recognized) : Prop :=
  one = other ∨ other.outranks one = true

theorem identifier_givesWay {found : Recognized} (alike : found.sort = .token .identifier) :
    GivesWay (.token .identifier) found := by
  unfold sort at alike
  split at alike
  · exact .inr rfl
  · exact .inr rfl
  · cases alike
  · cases alike
  · cases alike
  · exact .inl alike.symm

theorem directive_givesWay {found : Recognized} (alike : found.sort = .token .directive) :
    GivesWay (.token .directive) found := by
  unfold sort at alike
  split at alike
  · cases alike
  · cases alike
  · exact .inr rfl
  · cases alike
  · cases alike
  · exact .inl alike.symm

end Recognized

namespace TokenRule

variable {rule other : TokenRule} {text rest : List Char} {c : Char} {found : Recognized}

/-- The words with a fixed spelling, and what they are recognized as. -/
def reserved : List (String × Recognized) :=
  Qualifier.aliases.map (fun entry => (entry.1, .token (.qualifier entry.2))) ++
    Keyword.spellings.map (fun entry => (entry.1, .token (.keyword entry.2)))

/-- A rule for a fixed spelling. -/
def spelled (entry : String × Recognized) : TokenRule :=
  ⟨entry.2, Pattern.text entry.1.toList⟩

theorem filter_word : all.filter (·.recognized.sort = .token .identifier) =
    reserved.map spelled ++
      [⟨.token (.keyword .vectorType), vectorName⟩, ⟨.token .identifier, word⟩] := by
  rfl

theorem filter_mark : all.filter (·.recognized.sort = .token (.punct .hash)) =
    (Punctuator.all.map fun mark => (mark.spelling, .token (.punct mark))).map spelled :=
  rfl

theorem firstMatch?_spelled {entries : List (String × Recognized)} {entry : String × Recognized}
    (distinct : (entries.map Prod.fst).Nodup) (listed : entry ∈ entries) :
    firstMatch? (entries.map spelled) entry.1.toList = some entry.2 := by
  induction entries with
  | nil => cases listed
  | cons first others ih =>
    rw [List.map_cons, List.nodup_cons] at distinct
    rcases List.mem_cons.mp listed with rfl | listed
    · simp [firstMatch?, spelled]
    · have differs : entry.1.toList ≠ first.1.toList := by
        intro same
        rw [String.toList_inj] at same
        exact distinct.1 (same ▸ List.mem_map_of_mem listed)
      have passed : ¬ (spelled first).pattern.Matches entry.1.toList := by
        simpa [spelled] using differs
      rw [List.map_cons, firstMatch?, List.find?_cons_of_neg (by simpa using passed)]
      exact ih distinct.2 listed

theorem reserved_nodup : (reserved.map Prod.fst).Nodup := by
  decide +kernel

theorem spellings_nodup : (Punctuator.all.map Punctuator.spelling).Nodup := by
  decide +kernel

theorem reserved_scalar : ∀ entry ∈ reserved, ¬ vectorName.Matches entry.1.toList := by
  decide +kernel

theorem firstMatch?_of_before (front : List TokenRule) {back : List TokenRule}
    (before : ∀ other ∈ front, ¬ other.pattern.Matches text) (matched : rule.pattern.Matches text) :
    firstMatch? (front ++ rule :: back) text = some rule.recognized := by
  rw [firstMatch?_append, firstMatch?_eq_none.mpr before, Option.none_or, firstMatch?,
    List.find?_cons_of_pos (by simpa using matched), Option.map_some]

theorem reserved_first {entry : String × Recognized} (listed : entry ∈ reserved)
    (word : entry.2.sort = .token .identifier) (member : spelled entry ∈ all) :
    firstMatch? all entry.1.toList = some entry.2 := by
  have sorted := sortOf_of_matches member (matches_text.mpr rfl)
  rw [firstMatch?_sort, sorted, spelled, word, filter_word, firstMatch?_append,
    firstMatch?_spelled reserved_nodup listed, Option.some_or]

theorem marks_spelled (mark : Punctuator) (member : mark ∈ Punctuator.all) :
    firstMatch? all mark.spelling.toList = some (.token (.punct mark)) := by
  have listed := List.mem_map_of_mem (f := fun mark : Punctuator => (mark.spelling, Recognized.token (.punct mark))) member
  rw [firstMatch?_sort, punctuators_sort mark member, filter_mark]
  refine firstMatch?_spelled ?_ listed
  rw [List.map_map]
  exact spellings_nodup

theorem vectorName_first (matched : vectorName.Matches text) :
    firstMatch? all text = some (.token (.keyword .vectorType)) := by
  obtain ⟨c, rest, rfl⟩ := List.exists_cons_of_ne_nil (ne_nil_of_matches matched rfl)
  rw [firstMatch?_sort, sortOf_word (starts_vectorName matched.starts) (vectorName_word matched),
    filter_word]
  refine firstMatch?_of_before _ (fun other member found => ?_) matched
  obtain ⟨entry, listed, rfl⟩ := List.mem_map.mp member
  exact reserved_scalar entry listed (matches_text.mp found ▸ matched)

/-- A directive that is a pragma is read as one. -/
theorem pragma_first (matched : (directiveWord (Pattern.text "pragma".toList)).Matches text) :
    firstMatch? all text = some (.token .pragma) := by
  have sorted : sortOf text = .token .directive :=
    sortOf_directive matched fun w named => by rw [matches_text.mp named]; rfl
  have filter : all.filter (·.recognized.sort = .token .directive) =
      [⟨.token .pragma, directiveWord (Pattern.text "pragma".toList)⟩,
        ⟨.token .directive, directiveWord (atLeastOnce (one isWordStart))⟩] := rfl
  rw [firstMatch?_sort, sorted, filter]
  exact firstMatch?_of_before [] (List.forall_mem_nil _) matched

/-- The characters of a literal, where the first of them is escaped or not. -/
theorem literal_cons {quote : Char} (matched : (many (literalChar quote)).Matches (c :: rest)) :
    (c ≠ quote ∧ c ≠ '\\' ∧ (many (literalChar quote)).Matches rest) ∨
      (c = '\\' ∧ ∃ d others, rest = d :: others ∧ (many (literalChar quote)).Matches others) := by
  obtain ⟨front, back, rfl, first, later⟩ := matches_many_cons.mp matched
  rcases matches_either.mp first with plain | escaped
  · obtain ⟨d, accepted, same⟩ := matches_one.mp plain
    obtain ⟨rfl, rfl⟩ := List.cons.inj same
    simp only [Bool.and_eq_true, bne_iff_ne] at accepted
    exact .inl ⟨accepted.1.1, accepted.1.2, later⟩
  · obtain ⟨mark, one, split, marked, single⟩ := matches_seq.mp escaped
    obtain ⟨d, _, rfl⟩ := matches_one.mp single
    rw [matches_char.mp marked] at split
    obtain ⟨rfl, rfl⟩ := List.cons.inj split
    exact .inr ⟨rfl, d, back, rfl, later⟩

/-- The characters of a literal are told apart from the front. -/
theorem literal_tail {quote : Char} {front back : List Char}
    (first : (many (literalChar quote)).Matches front)
    (whole : (many (literalChar quote)).Matches (front ++ back)) :
    (many (literalChar quote)).Matches back := by
  induction length : front.length using Nat.strong_induction_on generalizing front with
  | _ n ih =>
    cases front with
    | nil => exact whole
    | cons c rest =>
      rcases literal_cons first with ⟨_, plain, later⟩ | ⟨rfl, d, others, rfl, later⟩
      · rcases literal_cons whole with ⟨_, _, whole⟩ | ⟨escape, _⟩
        · exact ih rest.length (by simp [← length]) later whole rfl
        · exact absurd escape plain
      · rcases literal_cons whole with ⟨_, plain, _⟩ | ⟨_, e, tail, split, whole⟩
        · exact absurd rfl plain
        · obtain ⟨rfl, rfl⟩ := List.cons.inj split
          have shorter : others.length < n := by
            simp only [← length, List.length_cons]
            omega
          exact ih others.length shorter later whole rfl

/-- A literal with its closing quote is none without. -/
theorem not_literal_closed {quote : Char} {front : List Char} (noEscape : quote ≠ '\\')
    (inside : (many (literalChar quote)).Matches front) :
    ¬ (many (literalChar quote)).Matches (front ++ [quote]) := by
  intro whole
  rcases literal_cons (literal_tail inside whole) with ⟨other, _⟩ | ⟨escape, _⟩
  · exact other rfl
  · exact noEscape escape

theorem stringOpening_inj {one two front back : List Char} (first : stringOpening.Matches one)
    (second : stringOpening.Matches two) (same : one ++ front = two ++ back) : front = back := by
  obtain ⟨_, rfl, rfl | rfl | rfl⟩ := stringOpening_cases first <;>
    obtain ⟨_, rfl, rfl | rfl | rfl⟩ := stringOpening_cases second <;> simp at same <;> exact same

theorem charOpening_inj {one two front back : List Char} (first : charOpening.Matches one)
    (second : charOpening.Matches two) (same : one ++ front = two ++ back) : front = back := by
  obtain ⟨_, rfl, rfl | rfl⟩ := charOpening_cases first <;>
    obtain ⟨_, rfl, rfl | rfl⟩ := charOpening_cases second <;> simp at same <;> exact same

/-- No literal is both closed and left open. -/
theorem not_closed_and_open {opening body : Pattern} {quote : Char} (noEscape : quote ≠ '\\')
    (inj : ∀ one two front back : List Char, opening.Matches one → opening.Matches two →
      one ++ front = two ++ back → front = back)
    (inside : ∀ front, body.Matches front → (many (literalChar quote)).Matches front)
    (closed : (seq opening (seq body (char quote))).Matches text)
    (left : (seq opening (many (literalChar quote))).Matches text) : False := by
  obtain ⟨one, _, rfl, opens, closes⟩ := matches_seq.mp closed
  obtain ⟨front, _, rfl, whole, atQuote⟩ := matches_seq.mp closes
  obtain ⟨two, back, same, opens', open'⟩ := matches_seq.mp left
  rw [matches_char.mp atQuote] at same
  rw [← inj one two _ _ opens opens' same] at open'
  exact not_literal_closed noEscape (inside front whole) open'

theorem not_string_both
    (closed : (seq stringOpening (seq (many (literalChar '"')) (char '"'))).Matches text)
    (left : (seq stringOpening (many (literalChar '"'))).Matches text) : False :=
  not_closed_and_open (by decide) (fun _ _ _ _ => stringOpening_inj) (fun _ => id) closed left

theorem not_character_both
    (closed : (seq charOpening (seq (atLeastOnce (literalChar '\'')) (char '\''))).Matches text)
    (left : (seq charOpening (many (literalChar '\''))).Matches text) : False := by
  refine not_closed_and_open (by decide) (fun _ _ _ _ => charOpening_inj) (fun front inside => ?_)
    closed left
  obtain ⟨_, _, rfl, first, others⟩ := matches_seq.mp inside
  exact .more first others

theorem filter_string : all.filter (·.recognized.sort = .quotation .string) =
    [⟨.quotation .string, seq stringOpening (seq (many (literalChar '"')) (char '"'))⟩,
      ⟨.openQuotation .string, seq stringOpening (many (literalChar '"'))⟩] :=
  rfl

theorem filter_character : all.filter (·.recognized.sort = .quotation .character) =
    [⟨.quotation .character, seq charOpening (seq (atLeastOnce (literalChar '\'')) (char '\''))⟩,
      ⟨.openQuotation .character, seq charOpening (many (literalChar '\''))⟩] :=
  rfl

/-- Of a closed and an open literal one at most matches a text. -/
theorem literal_alike {closed opened : TokenRule}
    (apart : closed.pattern.Matches text → opened.pattern.Matches text → False)
    (one : rule ∈ [closed, opened]) (two : other ∈ [closed, opened])
    (first : rule.pattern.Matches text) (second : other.pattern.Matches text) : rule = other := by
  simp only [List.mem_cons, List.not_mem_nil, or_false] at one two
  rcases one with rfl | rfl <;> rcases two with rfl | rfl
  · rfl
  · exact (apart first second).elim
  · exact (apart second first).elim
  · rfl

/-- Every other rule that matches a text gives way to the first that does. -/
theorem givesWay_of_firstMatch? (first : firstMatch? all text = some found) (member : rule ∈ all)
    (matched : rule.pattern.Matches text) :
    rule.recognized.GivesWay found := by
  have here (fixed : firstMatch? all text = some rule.recognized) :
      rule.recognized.GivesWay found :=
    .inl (Option.some.inj (fixed.symm.trans first))
  obtain ⟨earlier, listed, rfl, before⟩ := mem_of_firstMatch? first
  have alike : earlier.recognized.sort = rule.recognized.sort :=
    (sortOf_of_matches listed before).symm.trans (sortOf_of_matches member matched)
  have plain (plain : rule.recognized.isPlain = true) :
      rule.recognized.GivesWay earlier.recognized :=
    .inl (Recognized.eq_of_sort plain alike).symm
  have ofSort {sort : Recognized} (same : rule.recognized.sort = sort) :
      rule ∈ all.filter (·.recognized.sort = sort) ∧ earlier ∈ all.filter (·.recognized.sort = sort) :=
    ⟨List.mem_filter.mpr ⟨member, decide_eq_true same⟩,
      List.mem_filter.mpr ⟨listed, decide_eq_true (alike.trans same)⟩⟩
  have string (same : rule.recognized.sort = .quotation .string) :
      rule.recognized.GivesWay earlier.recognized := by
    obtain ⟨one, two⟩ := filter_string ▸ ofSort same
    exact .inl (congrArg _ (literal_alike not_string_both one two matched before))
  have character (same : rule.recognized.sort = .quotation .character) :
      rule.recognized.GivesWay earlier.recognized := by
    obtain ⟨one, two⟩ := filter_character ▸ ofSort same
    exact .inl (congrArg _ (literal_alike not_character_both one two matched before))
  have inAll := member
  simp only [all, List.mem_append, List.mem_cons, List.mem_map, List.not_mem_nil, or_false] at member
  rcases member with (((((rfl | rfl) | ⟨entry, entered, rfl⟩) | ⟨entry, entered, rfl⟩) | special) |
    ⟨mark, entered, rfl⟩) | rfl | rfl
  · exact plain rfl
  · exact plain rfl
  · refine here ?_
    rw [matches_text.mp matched]
    exact reserved_first (List.mem_append_left _ (List.mem_map_of_mem entered)) rfl inAll
  · refine here ?_
    rw [matches_text.mp matched]
    exact reserved_first (List.mem_append_right _ (List.mem_map_of_mem entered)) rfl inAll
  · rcases special with rfl | rfl | rfl | rfl | rfl | rfl | rfl | rfl | rfl | rfl | rfl | rfl | rfl | rfl
    · exact here (vectorName_first matched)
    · exact Recognized.identifier_givesWay alike
    · exact plain rfl
    · exact plain rfl
    · exact plain rfl
    · exact plain rfl
    · exact plain rfl
    · exact plain rfl
    · exact string rfl
    · exact string rfl
    · exact character rfl
    · exact character rfl
    · exact here (pragma_first matched)
    · exact Recognized.directive_givesWay alike
  · refine here ?_
    rw [matches_text.mp matched]
    exact marks_spelled mark entered
  · exact plain rfl
  · exact plain rfl

/-- A word is recognized as a token. -/
theorem firstMatch?_word (worded : word.Matches text) : ∃ kind, firstMatch? all text = some (.token kind) := by
  have member : (⟨.token .identifier, word⟩ : TokenRule) ∈ all := by simp [all]
  cases first : firstMatch? all text with
  | none => exact absurd worded (firstMatch?_eq_none.mp first _ member)
  | some found =>
    obtain ⟨rule, listed, rfl, matched⟩ := mem_of_firstMatch? first
    have alike := (sortOf_of_matches listed matched).symm.trans (sortOf_of_matches member worded)
    obtain ⟨kind, same⟩ := Recognized.token_of_sort alike
    exact ⟨kind, congrArg _ same⟩

end TokenRule

end OpenCLTree

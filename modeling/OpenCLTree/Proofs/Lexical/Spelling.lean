import OpenCLTree.Proofs.Lexical.Stream

namespace OpenCLTree

open Pattern

/-- A text that no rule reads on from across a blank. -/
structure Plain (text : List Char) : Prop where
  nonempty : text ≠ []
  head : text.head?.all fun c => !(TokenRule.blanks.starts c || c == '\\' || c == '#')
  quotes : '"' ∉ text ∧ '\'' ∉ text
  comment : ¬ ['/', '/'] <+: text
  hexadecimal : ¬ ['0', 'x'] <+: text ∧ ¬ ['0', 'X'] <+: text

namespace TokenRule

variable {w v : List Char}

/-- What opens with a quote does so in front of the blank. -/
theorem quote_mem {opening body : Pattern} {quote : Char}
    (avoids : (seq opening (char quote)).avoids ' ' = true)
    (found : (seq (seq opening (char quote)) body).Matches (w ++ ' ' :: v)) : quote ∈ w := by
  obtain ⟨front, back, split, opens, _⟩ := matches_seq.mp found
  have before : front <+: w ++ ' ' :: v := ⟨back, split.symm⟩
  have within := (prefix_of_append_cons before (opens.notMem avoids)).subset
  obtain ⟨_, closing, rfl, _, atQuote⟩ := matches_seq.mp opens
  rw [matches_char] at atQuote
  exact within (by simp [atQuote])

theorem aliases_avoid : ∀ entry ∈ Qualifier.aliases, ' ' ∉ entry.1.toList := by
  decide +kernel

theorem spellings_avoid : ∀ entry ∈ Keyword.spellings, ' ' ∉ entry.1.toList := by
  decide +kernel

theorem punctuators_avoid : ∀ mark ∈ Punctuator.all, ' ' ∉ mark.spelling.toList := by
  decide +kernel

/-- No rule matches a plain text, a blank and something more. -/
theorem not_matches_across (plain : Plain w) : ∀ rule ∈ all, ¬ rule.pattern.Matches (w ++ ' ' :: v) := by
  have blank : ' ' ∈ w ++ ' ' :: v := by simp
  intro rule member found
  have avoids (free : rule.pattern.avoids ' ' = true) : False := found.notMem free blank
  obtain ⟨c, w, rfl⟩ := List.exists_cons_of_ne_nil plain.nonempty
  have head := plain.head
  have start := found.starts
  simp only [all, List.mem_append, List.mem_cons, List.mem_map, List.not_mem_nil, or_false] at member
  rcases member with (((((rfl | rfl) | ⟨entry, listed, rfl⟩) | ⟨entry, listed, rfl⟩) | special) |
    ⟨mark, listed, rfl⟩) | rfl | rfl
  · simp [start] at head
  · exact avoids rfl
  · exact aliases_avoid entry listed (matches_text.mp found ▸ blank)
  · exact spellings_avoid entry listed (matches_text.mp found ▸ blank)
  · rcases special with rfl | rfl | rfl | rfl | rfl | rfl | rfl | rfl | rfl | rfl | rfl | rfl | rfl | rfl
    · exact avoids (by decide +kernel)
    · exact avoids rfl
    · exact avoids rfl
    · exact avoids rfl
    · exact avoids rfl
    · exact avoids rfl
    · exact avoids rfl
    · exact avoids rfl
    · exact plain.quotes.1 (quote_mem (by rfl) found)
    · exact plain.quotes.1 (quote_mem (by rfl) found)
    · exact plain.quotes.2 (quote_mem (by rfl) found)
    · exact plain.quotes.2 (quote_mem (by rfl) found)
    · simp [show c = '#' by simpa [directiveWord, starts, char, nullable] using start] at head
    · simp [show c = '#' by simpa [directiveWord, starts, char, nullable] using start] at head
  · exact punctuators_avoid mark (by cases mark <;> decide) (matches_text.mp found ▸ blank)
  · obtain ⟨_, back, split, opens, _⟩ := matches_seq.mp found
    rw [matches_text.mp opens] at split
    cases w with
    | nil => simp at split
    | cons d w =>
      simp only [List.cons_append, List.nil_append, List.cons.injEq] at split
      exact plain.comment (by simp [split.1, split.2.1])
  · exact avoids rfl

/-- In front of a blank, or at the end, a plain text is read as what its first rule recognizes. -/
theorem longest?_spaced {recognized : Recognized} (plain : Plain w)
    (separate : v.head?.all (· == ' ') = true) (first : firstMatch? all w = some recognized) :
    longest? (w ++ v) = some (recognized, w.length) := by
  refine longest?_eq_some.mpr ⟨List.length_pos_iff.mpr plain.nonempty, by simp, ?_, ?_⟩
  · rwa [List.take_left' rfl]
  · intro m longer within
    obtain ⟨n, rfl⟩ := Nat.exists_eq_add_of_lt longer
    cases v with
    | nil =>
      simp only [List.append_nil] at within
      omega
    | cons c v =>
      obtain rfl : c = ' ' := by simpa using separate
      rw [firstMatch?_eq_none, Nat.add_assoc, List.take_length_add_append, List.take_succ_cons]
      exact not_matches_across plain

end TokenRule

section Irregular

variable {w v : List Char}

theorem spacedHash?_spaced (plain : Plain w) : spacedHash? (w ++ v) = none := by
  obtain ⟨c, w, rfl⟩ := List.exists_cons_of_ne_nil plain.nonempty
  have head := plain.head
  unfold spacedHash?
  split
  · rename_i same
    simp [(List.cons.inj same).1] at head
  · rfl

theorem cutWideChar?_spaced (plain : Plain w) (separate : v.head?.all (· == ' ') = true) :
    cutWideChar? (w ++ v) = none := by
  have quoted (rest : List Char) (same : w ++ v = 'L' :: '\'' :: rest) : False := by
    refine plain.quotes.2 ?_
    match w, same with
    | [], _ => exact absurd rfl plain.nonempty
    | [_], same =>
      obtain rfl : v = '\'' :: rest := (List.cons.inj same).2
      cases separate
    | _ :: _ :: _, same =>
      simp only [List.cons_append, List.cons.injEq] at same
      simp [same.2.1]
  unfold cutWideChar?
  split
  · exact (quoted _ ‹_›).elim
  · exact (quoted _ ‹_›).elim
  · rfl

theorem unscaledHexFloat?_spaced (plain : Plain w) (separate : v.head?.all (· == ' ') = true) :
    unscaledHexFloat? (w ++ v) = none := by
  unfold unscaledHexFloat?
  split
  · rename_i x body same
    have decimal : (x == 'x' || x == 'X') = false := by
      match w, same with
      | [], _ => exact absurd rfl plain.nonempty
      | [_], same =>
        obtain rfl : v = x :: body := (List.cons.inj same).2
        rw [show x = ' ' by simpa using separate]
        rfl
      | c :: d :: rest, same =>
        simp only [List.cons_append, List.cons.injEq] at same
        obtain ⟨rfl, rfl, _⟩ := same
        have mark := plain.hexadecimal
        simp only [List.cons_prefix_cons, true_and, List.nil_prefix, and_true] at mark
        simp [Ne.symm mark.1, Ne.symm mark.2]
    split
    · simp [decimal]
    · rfl
  · rfl

theorem irregular?_spaced (plain : Plain w) (separate : v.head?.all (· == ' ') = true) :
    irregular? (w ++ v) = none := by
  rw [irregular?, spacedHash?_spaced plain, cutWideChar?_spaced plain separate,
    unscaledHexFloat?_spaced plain separate]
  rfl

end Irregular

theorem findingAt_spaced {w v : List Char} {kind : TokenKind} (plain : Plain w)
    (separate : v.head?.all (· == ' ') = true)
    (first : TokenRule.firstMatch? TokenRule.all w = some (.token kind)) :
    findingAt (w ++ v) = (.token kind, w.length) := by
  simp only [findingAt, irregular?_spaced plain separate,
    TokenRule.longest?_spaced plain separate first, judge]

/-- A single blank in front of a plain text is read alone. -/
theorem findingAt_blank {w v : List Char} (plain : Plain w) :
    findingAt (' ' :: (w ++ v)) = (.trivia, 1) := by
  obtain ⟨c, w, rfl⟩ := List.exists_cons_of_ne_nil plain.nonempty
  have head := plain.head
  simp only [List.head?_cons, Option.all_some, Bool.not_eq_true', Bool.or_eq_false_iff] at head
  have alone : TokenRule.all.filter (·.pattern.starts ' ') = [⟨.blank, TokenRule.blanks⟩] := rfl
  have here : TokenRule.firstMatch? TokenRule.all [' '] = some .blank := by decide +kernel
  have longest : TokenRule.longest? (' ' :: (c :: w ++ v)) = some (.blank, 1) := by
    refine TokenRule.longest?_eq_some.mpr ⟨Nat.one_pos, by simp, here, ?_⟩
    intro m longer _
    obtain ⟨n, rfl⟩ := Nat.exists_eq_add_of_lt longer
    rw [TokenRule.firstMatch?_eq_none, show 1 + n + 1 = n + 1 + 1 by omega, List.take_succ_cons,
      List.cons_append, List.take_succ_cons]
    intro rule member found
    have blank : rule ∈ TokenRule.all.filter (·.pattern.starts ' ') :=
      List.mem_filter.mpr ⟨member, found.starts⟩
    rw [alone, List.mem_singleton] at blank
    have avoids : TokenRule.blanks.avoids c = true := by
      simpa [TokenRule.blanks, atLeastOnce, oneOf, Pattern.avoids, starts, nullable] using head.1.1
    rw [blank] at found
    exact found.notMem avoids (by simp)
  have regular : irregular? (' ' :: (c :: w ++ v)) = none := rfl
  rw [findingAt, regular, longest]
  rfl

/-- A text that is an identifier: a word that is no keyword of any sort. -/
structure IsName (text : String) : Prop where
  word : TokenRule.word.Matches text.toList
  qualifier : ∀ entry ∈ Qualifier.aliases, entry.1 ≠ text
  keyword : ∀ entry ∈ Keyword.spellings, entry.1 ≠ text
  vector : ¬ TokenRule.vectorName.Matches text.toList

namespace TokenRule

/-- The rules for numbers that are not hexadecimal. -/
def decimals : List Pattern :=
  [decimalInteger, pointFloat, fractionFloat, exponentFloat]

end TokenRule

/-- A text that is a decimal number, with or without a fraction and an exponent. -/
def IsDecimal (text : String) : Prop :=
  ∃ pattern ∈ TokenRule.decimals, pattern.Matches text.toList

namespace TokenRule

variable {text : List Char}

/-- Whether a character can begin a word or a number. -/
def startsPlain (c : Char) : Bool :=
  isWordStart c || c.isDigit || c == '.'

theorem not_startsPlain {c : Char} (special : (blanks.starts c || c == '\\' || c == '#') = true) :
    startsPlain c = false := by
  simp only [blanks, atLeastOnce, oneOf, starts, nullable, Bool.false_and, Bool.or_false,
    List.contains_cons, List.contains_nil, Bool.or_eq_true, beq_iff_eq] at special
  rcases special with ((rfl | rfl | rfl | rfl | rfl | rfl) | rfl) | rfl <;> decide

theorem plain_of_starts (some : text ≠ []) (head : text.head?.all startsPlain = true)
    (avoids : '"' ∉ text ∧ '\'' ∉ text ∧ '/' ∉ text)
    (hexadecimal : ¬ ['0', 'x'] <+: text ∧ ¬ ['0', 'X'] <+: text) : Plain text where
  nonempty := some
  head := by
    cases text with
    | nil => rfl
    | cons c rest =>
      simp only [List.head?_cons, Option.all_some] at head ⊢
      rw [Bool.not_eq_true', Bool.eq_false_iff]
      intro special
      cases head.symm.trans (not_startsPlain special)
  quotes := ⟨avoids.1, avoids.2.1⟩
  comment within := avoids.2.2 (within.subset (by simp))
  hexadecimal := hexadecimal

theorem ne_nil_of_matches {pattern : Pattern} (found : pattern.Matches text)
    (some : pattern.nullable = false) : text ≠ [] := by
  rintro rfl
  rw [← nullable_iff, some] at found
  cases found

/-- The text of a name is read as an identifier in front of a blank. -/
theorem plain_of_word (found : word.Matches text) : Plain text := by
  have some := ne_nil_of_matches found rfl
  obtain ⟨c, rest, rfl⟩ := List.exists_cons_of_ne_nil some
  have start : isWordStart c = true := by simpa [word, starts, nullable] using found.starts
  refine plain_of_starts some (by simp [startsPlain, start])
    ⟨found.notMem rfl, found.notMem rfl, found.notMem rfl⟩ ⟨fun zero => ?_, fun zero => ?_⟩
  · rw [← (List.cons_prefix_cons.mp zero).1] at start
    cases start
  · rw [← (List.cons_prefix_cons.mp zero).1] at start
    cases start

theorem starts_decimal {pattern : Pattern} {c : Char} (listed : pattern ∈ decimals)
    (start : pattern.starts c = true) : c.isDigit = true ∨ c = '.' := by
  simp only [decimals, List.mem_cons, List.not_mem_nil, or_false] at listed
  rcases listed with rfl | rfl | rfl | rfl
  · exact .inl (by simpa [decimalInteger, digits, atLeastOnce, starts, nullable] using start)
  · exact .inl (by simpa [pointFloat, digits, atLeastOnce, starts, nullable] using start)
  · exact .inr (by simpa [fractionFloat, char, starts, nullable] using start)
  · exact .inl (by simpa [exponentFloat, digits, atLeastOnce, starts, nullable] using start)

theorem avoids_decimal : ∀ pattern ∈ decimals, pattern.nullable = false ∧
    ['"', '\'', '/', 'x', 'X'].all (pattern.avoids ·) = true := by
  simp only [decimals, List.forall_mem_cons]
  exact ⟨⟨rfl, rfl⟩, ⟨rfl, rfl⟩, ⟨rfl, rfl⟩, ⟨rfl, rfl⟩, List.forall_mem_nil _⟩

theorem plain_of_decimal {pattern : Pattern} (listed : pattern ∈ decimals)
    (found : pattern.Matches text) : Plain text := by
  obtain ⟨positive, avoids⟩ := avoids_decimal pattern listed
  have without (c : Char) (among : c ∈ ['"', '\'', '/', 'x', 'X']) : c ∉ text :=
    found.notMem (List.all_eq_true.mp avoids c among)
  have some := ne_nil_of_matches found positive
  refine plain_of_starts some ?_ ⟨without _ (by simp), without _ (by simp), without _ (by simp)⟩
    ⟨fun mark => without 'x' (by simp) (mark.subset (by simp)),
      fun mark => without 'X' (by simp) (mark.subset (by simp))⟩
  obtain ⟨c, rest, rfl⟩ := List.exists_cons_of_ne_nil some
  rcases starts_decimal listed found.starts with digit | rfl
  · simp [startsPlain, digit]
  · rfl

/-- The rules in front of those for names and numbers. -/
def wordRules : List TokenRule :=
  [⟨.blank, blanks⟩, ⟨.blank, continuation⟩] ++
  Qualifier.aliases.map (fun entry => ⟨.token (.qualifier entry.2), Pattern.text entry.1.toList⟩) ++
  Keyword.spellings.map (fun entry => ⟨.token (.keyword entry.2), Pattern.text entry.1.toList⟩) ++
  [⟨.token (.keyword .vectorType), vectorName⟩]

def numberRules : List TokenRule :=
  [hexInteger, hexFloat, decimalInteger, pointFloat, fractionFloat, exponentFloat].map
    (⟨.token .number, ·⟩)

def literalRules : List TokenRule :=
  [⟨.quotation .string, seq stringOpening (seq (many (literalChar '"')) (char '"'))⟩,
    ⟨.openQuotation .string, seq stringOpening (many (literalChar '"'))⟩,
    ⟨.quotation .character, seq charOpening (seq (atLeastOnce (literalChar '\'')) (char '\''))⟩,
    ⟨.openQuotation .character, seq charOpening (many (literalChar '\''))⟩,
    ⟨.token .pragma, directiveWord (Pattern.text "pragma".toList)⟩,
    ⟨.token .directive, directiveWord (atLeastOnce (one isWordStart))⟩]

def markRules : List TokenRule :=
  Punctuator.all.map fun mark => ⟨.token (.punct mark), Pattern.text mark.spelling.toList⟩

theorem all_eq : ∃ back,
    all = wordRules ++ (⟨.token .identifier, word⟩ :: numberRules ++ (literalRules ++ (markRules ++ back))) :=
  ⟨_, rfl⟩

theorem aliases_start : ∀ entry ∈ Qualifier.aliases, entry.1.toList.head?.all isWordStart = true := by
  decide +kernel

theorem spellings_start :
    ∀ entry ∈ Keyword.spellings, entry.1.toList.head?.all isWordStart = true := by
  decide +kernel

theorem starts_vectorName {c : Char} (start : vectorName.starts c = true) : isWordStart c = true := by
  simp [vectorName, anyOf, Pattern.text, char, starts, nullable] at start
  rcases start with rfl | rfl | rfl | rfl | rfl | rfl | rfl | rfl | rfl | rfl | rfl | rfl <;> decide

/-- Only what begins like a word can be a keyword. -/
theorem firstMatch?_wordRules {c : Char} {rest : List Char} (noWord : isWordStart c = false)
    (noSpace : blanks.starts c = false) (noJoin : c ≠ '\\') :
    firstMatch? wordRules (c :: rest) = none := by
  rw [firstMatch?_eq_none]
  intro rule member found
  simp only [wordRules, List.mem_append, List.mem_cons, List.mem_map, List.not_mem_nil, or_false] at member
  rcases member with (((rfl | rfl) | ⟨entry, listed, rfl⟩) | ⟨entry, listed, rfl⟩) | rfl
  · cases noSpace.symm.trans found.starts
  · exact noJoin (by simpa [continuation, char, starts, nullable] using found.starts)
  · have start := aliases_start entry listed
    rw [← matches_text.mp found] at start
    cases noWord.symm.trans start
  · have start := spellings_start entry listed
    rw [← matches_text.mp found] at start
    cases noWord.symm.trans start
  · have start := starts_vectorName found.starts
    cases noWord.symm.trans start

theorem firstMatch?_name {name : String} (isName : IsName name) :
    firstMatch? all name.toList = some (.token .identifier) := by
  obtain ⟨back, split⟩ := all_eq
  have plain := plain_of_word isName.word
  have before : firstMatch? wordRules name.toList = none := by
    rw [firstMatch?_eq_none]
    intro rule member found
    obtain ⟨c, rest, text⟩ := List.exists_cons_of_ne_nil plain.nonempty
    have head := plain.head
    simp only [text, List.head?_cons, Option.all_some, Bool.not_eq_true', Bool.or_eq_false_iff,
      beq_eq_false_iff_ne] at head
    simp only [wordRules, List.mem_append, List.mem_cons, List.mem_map, List.not_mem_nil, or_false] at member
    rcases member with (((rfl | rfl) | ⟨entry, listed, rfl⟩) | ⟨entry, listed, rfl⟩) | rfl
    · rw [text] at found
      exact absurd found.starts (by simp [head.1.1])
    · rw [text] at found
      exact head.1.2 (by simpa [continuation, char, starts, nullable] using found.starts)
    · exact isName.qualifier entry listed (String.toList_inj.mp (matches_text.mp found).symm)
    · exact isName.keyword entry listed (String.toList_inj.mp (matches_text.mp found).symm)
    · exact isName.vector found
  rw [split, firstMatch?_append, before, Option.none_or, firstMatch?, List.cons_append,
    List.find?_cons_of_pos (by simpa using isName.word)]
  rfl

theorem isWordStart_of_isDigit {c : Char} (digit : c.isDigit = true) : isWordStart c = false := by
  have range : '0'.val ≤ c.val ∧ c.val ≤ '9'.val := by simpa [Char.isDigit] using digit
  have noLetter : (decide (c.val ≥ 'A'.val ∧ c.val ≤ 'Z'.val) ||
      (c.val ≥ 'a'.val && c.val ≤ 'z'.val)) = false := by grind
  rw [isWordStart, Bool.or_eq_false_iff, beq_eq_false_iff_ne]
  constructor
  · exact noLetter
  · rintro rfl
    cases digit

theorem firstMatch?_decimal {number : String} (isDecimal : IsDecimal number) :
    firstMatch? all number.toList = some (.token .number) := by
  obtain ⟨pattern, listed, found⟩ := isDecimal
  obtain ⟨back, split⟩ := all_eq
  have plain := plain_of_decimal listed found
  have here : firstMatch? numberRules number.toList = some (.token .number) := by
    have member : (⟨.token .number, pattern⟩ : TokenRule) ∈ numberRules := by
      simp only [decimals, List.mem_cons, List.not_mem_nil, or_false] at listed
      rcases listed with rfl | rfl | rfl | rfl <;> simp [numberRules]
    exact firstMatch?_of_same (by simp [numberRules]) member found
  obtain ⟨c, rest, text⟩ := List.exists_cons_of_ne_nil plain.nonempty
  have head := plain.head
  rw [text] at found
  have noWord : isWordStart c = false := by
    rcases starts_decimal listed found.starts with digit | rfl
    · exact isWordStart_of_isDigit digit
    · rfl
  simp only [text, List.head?_cons, Option.all_some, Bool.not_eq_true', Bool.or_eq_false_iff,
    beq_eq_false_iff_ne] at head
  have noName : firstMatch? [⟨.token .identifier, word⟩] (c :: rest) = none := by
    rw [firstMatch?_eq_none]
    refine List.forall_mem_singleton.mpr fun isName => ?_
    have start := isName.starts
    simp [word, starts, nullable, noWord] at start
  rw [text] at here ⊢
  rw [split, firstMatch?_append, firstMatch?_wordRules noWord head.1.1 head.1.2, Option.none_or,
    firstMatch?_append, ← List.singleton_append, firstMatch?_append, noName, here]
  rfl

theorem marks_plain : ∀ mark ∈ Punctuator.all, mark ≠ .hash → mark ≠ .hashHash →
    (mark.spelling.toList.head?.any fun c =>
      !(blanks.starts c || c == '\\' || c == '#') && !isWordStart c) = true ∧
      ('"' ∉ mark.spelling.toList ∧ '\'' ∉ mark.spelling.toList) ∧
      ¬ ['/', '/'] <+: mark.spelling.toList ∧
      ¬ ['0', 'x'] <+: mark.spelling.toList ∧ ¬ ['0', 'X'] <+: mark.spelling.toList := by
  decide +kernel

theorem marks_first : ∀ mark ∈ Punctuator.all, mark ≠ .hash → mark ≠ .hashHash →
    firstMatch? (⟨.token .identifier, word⟩ :: numberRules) mark.spelling.toList = none ∧
      firstMatch? literalRules mark.spelling.toList = none ∧
      firstMatch? markRules mark.spelling.toList = some (.token (.punct mark)) := by
  decide +kernel

theorem keywords_first :
    firstMatch? all "int".toList = some (.token (.keyword .int)) ∧
      firstMatch? all "void".toList = some (.token (.keyword .void)) := by
  decide +kernel

end TokenRule

/-- A token without a place, on the line of the token before it. -/
def Token.leaf (kind : TokenKind) (text : String) : Token :=
  ⟨kind, text, ⟨0, 0⟩, false⟩

/-- Whether a token without a place is read as it is wherever a blank follows its text. -/
structure Token.IsSpelled (token : Token) : Prop where
  plain : Plain token.text.toList
  first : TokenRule.firstMatch? TokenRule.all token.text.toList = some (.token token.kind)
  leaf : Token.leaf token.kind token.text = token

theorem Token.IsSpelled.newlineBefore {token : Token} (spelled : token.IsSpelled) :
    token.newlineBefore = false := by
  rw [← spelled.leaf]
  rfl

def Punctuator.leaf (mark : Punctuator) : Token :=
  .leaf (.punct mark) mark.spelling

theorem IsName.isSpelled {name : String} (isName : IsName name) :
    (Token.leaf .identifier name).IsSpelled :=
  ⟨TokenRule.plain_of_word isName.word, TokenRule.firstMatch?_name isName, rfl⟩

theorem IsDecimal.isSpelled {number : String} (isDecimal : IsDecimal number) :
    (Token.leaf .number number).IsSpelled := by
  have first := TokenRule.firstMatch?_decimal isDecimal
  obtain ⟨_, listed, found⟩ := isDecimal
  exact ⟨TokenRule.plain_of_decimal listed found, first, rfl⟩

theorem Keyword.int_isSpelled : (Token.leaf (.keyword .int) "int").IsSpelled :=
  ⟨TokenRule.plain_of_word (by decide +kernel), TokenRule.keywords_first.1, rfl⟩

theorem Keyword.void_isSpelled : (Token.leaf (.keyword .void) "void").IsSpelled :=
  ⟨TokenRule.plain_of_word (by decide +kernel), TokenRule.keywords_first.2, rfl⟩

theorem Punctuator.leaf_isSpelled (mark : Punctuator) (noHash : mark ≠ .hash)
    (noHashHash : mark ≠ .hashHash) : mark.leaf.IsSpelled := by
  have listed : mark ∈ Punctuator.all := by cases mark <;> decide
  obtain ⟨head, quotes, comment, hexadecimal⟩ := TokenRule.marks_plain mark listed noHash noHashHash
  obtain ⟨noWord, noLiteral, first⟩ := TokenRule.marks_first mark listed noHash noHashHash
  obtain ⟨back, split⟩ := TokenRule.all_eq
  cases text : mark.spelling.toList with
  | nil => simp [text] at head
  | cons c rest =>
    simp only [text, List.head?_cons, Option.any_some, Bool.and_eq_true, Bool.not_eq_true',
      Bool.or_eq_false_iff, beq_eq_false_iff_ne] at head
    refine ⟨⟨?_, ?_, quotes, comment, hexadecimal⟩, ?_, rfl⟩
    · simp [leaf, Token.leaf, text]
    · simp [leaf, Token.leaf, text, head.1]
    · rw [leaf, Token.leaf, split, TokenRule.firstMatch?_append, text,
        TokenRule.firstMatch?_wordRules head.2 head.1.1.1 head.1.1.2, ← text, Option.none_or,
        TokenRule.firstMatch?_append, noWord, Option.none_or, TokenRule.firstMatch?_append,
        noLiteral, Option.none_or, TokenRule.firstMatch?_append, first]
      rfl

end OpenCLTree

import OpenCLTree.Proofs.Lexical.Spelling
import Mathlib.Data.List.TakeWhile

namespace OpenCLTree

open Pattern

variable {name text : List Char} {c d : Char} {rest : List Char}

/-- The characters that component names begin with. -/
def accessorLetters : List Char :=
  's' :: 'S' :: (positionLetters ++ colorLetters)

theorem isSwizzle_cons (swizzle : isSwizzle (c :: rest) = true) : c ∈ accessorLetters := by
  simp only [isSwizzle, positionLetters, colorLetters] at swizzle
  simp only [accessorLetters, positionLetters, colorLetters]
  split at swizzle
  · rename_i scalar
    simp only [Bool.or_eq_true, beq_iff_eq] at scalar
    rcases scalar with rfl | rfl <;> simp
  · simp only [List.all_cons, List.contains_eq_mem, Bool.and_eq_true, Bool.or_eq_true,
      decide_eq_true_eq] at swizzle
    rcases swizzle.2 with ⟨position, _⟩ | ⟨color, _⟩
    · exact List.mem_cons_of_mem _ (List.mem_cons_of_mem _ (List.mem_append_left _ position))
    · exact List.mem_cons_of_mem _ (List.mem_cons_of_mem _ (List.mem_append_right _ color))

theorem isWordStart_accessor : accessorLetters.all isWordStart = true := by
  decide

theorem aliases_noSwizzle : ∀ entry ∈ Qualifier.aliases, isSwizzle entry.1.toList = false := by
  decide +kernel

theorem spellings_noSwizzle : ∀ entry ∈ Keyword.spellings, isSwizzle entry.1.toList = false := by
  decide +kernel

theorem vectorName_noSwizzle (found : TokenRule.vectorName.Matches name) : isSwizzle name = false := by
  obtain ⟨front, back, rfl, base, _⟩ := matches_seq.mp found
  simp only [anyOf, List.map_cons, List.map_nil, matches_either, matches_text] at base
  rcases base with rfl | rfl | rfl | rfl | rfl | rfl | rfl | rfl | rfl | rfl | rfl | rfl
  all_goals simp [isSwizzle, positionLetters, colorLetters, isHexDigit]

/-- Component names are names. -/
theorem isName_of_isSwizzle (swizzle : isSwizzle name = true)
    (worded : ∀ c ∈ name, isWordChar c = true) : IsName (String.ofList name) where
  word := by
    rw [String.toList_ofList]
    cases name with
    | nil => cases swizzle
    | cons c rest =>
      have start := List.all_eq_true.mp isWordStart_accessor c (isSwizzle_cons swizzle)
      refine matches_seq.mpr ⟨[c], rest, rfl, matches_one.mpr ⟨c, start, rfl⟩, ?_⟩
      exact matches_many_one.mpr fun c member => worded c (List.mem_cons_of_mem _ member)
  qualifier entry listed same := by
    have other := aliases_noSwizzle entry listed
    rw [same, String.toList_ofList, swizzle] at other
    cases other
  keyword entry listed same := by
    have other := spellings_noSwizzle entry listed
    rw [same, String.toList_ofList, swizzle] at other
    cases other
  vector found := by
    rw [String.toList_ofList] at found
    cases (vectorName_noSwizzle found).symm.trans swizzle

namespace TokenRule

theorem aliases_word : ∀ entry ∈ Qualifier.aliases, entry.1.toList.all isWordChar = true := by
  decide +kernel

theorem spellings_word : ∀ entry ∈ Keyword.spellings, entry.1.toList.all isWordChar = true := by
  decide +kernel

theorem vectorName_word (found : vectorName.Matches text) : ∀ c ∈ text, isWordChar c = true := by
  obtain ⟨front, back, rfl, base, size⟩ := matches_seq.mp found
  simp only [anyOf, List.map_cons, List.map_nil, matches_either, matches_text] at base size
  refine List.forall_mem_append.mpr ⟨?_, ?_⟩
  · rcases base with rfl | rfl | rfl | rfl | rfl | rfl | rfl | rfl | rfl | rfl | rfl | rfl
    all_goals exact List.all_eq_true.mp rfl
  · rcases size with rfl | rfl | rfl | rfl | rfl
    all_goals exact List.all_eq_true.mp rfl

theorem word_word (found : word.Matches text) : ∀ c ∈ text, isWordChar c = true := by
  obtain ⟨front, back, rfl, first, others⟩ := matches_seq.mp found
  obtain ⟨c, start, rfl⟩ := matches_one.mp first
  refine List.forall_mem_cons.mpr ⟨?_, matches_many_one.mp others⟩
  simp only [isWordStart, isWordChar, Char.isAlphanum, Bool.or_eq_true] at start ⊢
  exact start.imp_left .inl

/-- The rules behind those for names. -/
def laterRules : List TokenRule :=
  numberRules ++ (literalRules ++ (markRules ++
    [⟨.lineComment, lineComment⟩, ⟨.commentOpening, Pattern.text ['/', '*']⟩]))

theorem all_split : all = wordRules ++ ⟨.token .identifier, word⟩ :: laterRules :=
  rfl

/-- What begins like component names is read by the rules for words or not at all. -/
theorem starts_accessor : accessorLetters.all (fun c => !blanks.starts c &&
    !continuation.starts c && laterRules.all fun rule => !rule.pattern.starts c) = true := by
  decide +kernel

/-- Beyond the end of a word no rule reads on that begins as component names do. -/
theorem not_matches_beyond (letter : c ∈ accessorLetters) (other : isWordChar d = false)
    (beyond : d ∈ c :: rest) : ∀ rule ∈ all, ¬ rule.pattern.Matches (c :: rest) := by
  have none := List.all_eq_true.mp starts_accessor c letter
  simp only [Bool.and_eq_true, Bool.not_eq_true'] at none
  obtain ⟨⟨noBlank, noJoin⟩, others⟩ := none
  intro rule member found
  rw [all_split, wordRules] at member
  simp only [List.mem_append, List.mem_cons, List.mem_map, List.not_mem_nil, or_false] at member
  have inWord (worded : ∀ d ∈ c :: rest, isWordChar d = true) : False := by
    cases other.symm.trans (worded d beyond)
  rcases member with ((((rfl | rfl) | ⟨entry, listed, rfl⟩) | ⟨entry, listed, rfl⟩) | rfl) |
    rfl | later
  · cases noBlank.symm.trans found.starts
  · cases noJoin.symm.trans found.starts
  · exact inWord (matches_text.mp found ▸ List.all_eq_true.mp (aliases_word entry listed))
  · exact inWord (matches_text.mp found ▸ List.all_eq_true.mp (spellings_word entry listed))
  · exact inWord (vectorName_word found)
  · exact inWord (word_word found)
  · have starts := List.all_eq_true.mp others rule later
    simp [found.starts] at starts

end TokenRule

theorem irregular?_accessor (letter : c ∈ accessorLetters) : irregular? (c :: rest) = none := by
  simp only [accessorLetters, positionLetters, colorLetters, List.cons_append, List.nil_append,
    List.mem_cons, List.not_mem_nil, or_false] at letter
  rcases letter with rfl | rfl | rfl | rfl | rfl | rfl | rfl | rfl | rfl | rfl <;> rfl

theorem accessorName?_nonempty (accessor : accessorName? text = some name) : name ≠ [] := by
  unfold accessorName? at accessor
  dsimp only at accessor
  split at accessor
  case isFalse => cases accessor
  case isTrue swizzle =>
    rintro rfl
    rw [Option.some.inj accessor] at swizzle
    cases swizzle

/-- Component names right after a dot are read as a name where they are read by themselves. -/
theorem findingAt_accessor (accessor : accessorName? text = some name) :
    findingAt text = (.token .identifier, name.length) := by
  unfold accessorName? at accessor
  dsimp only at accessor
  split at accessor
  case isFalse => cases accessor
  case isTrue swizzle =>
    obtain rfl := Option.some.inj accessor
    have worded (c : Char) (member : c ∈ text.takeWhile isWordChar) : isWordChar c = true :=
      List.mem_takeWhile_imp member
    have isName := TokenRule.firstMatch?_name (isName_of_isSwizzle swizzle worded)
    rw [String.toList_ofList] at isName
    have split := List.takeWhile_append_dropWhile (p := isWordChar) (l := text)
    generalize text.takeWhile isWordChar = name at *
    cases name with
    | nil => cases swizzle
    | cons c rest =>
      have letter := isSwizzle_cons swizzle
      have longest : TokenRule.longest? text = some (.token .identifier, (c :: rest).length) := by
        refine TokenRule.longest?_eq_some.mpr ⟨Nat.succ_pos _, ?_, ?_, fun m longer within => ?_⟩
        · rw [← split, List.length_append]
          exact Nat.le_add_right _ _
        · rwa [← split, List.take_left' rfl]
        · cases beyond : text.dropWhile isWordChar with
          | nil =>
            rw [beyond, List.append_nil] at split
            rw [← split] at within
            omega
          | cons d others =>
            have other : isWordChar d = false := by
              have head := List.head?_dropWhile_not isWordChar text
              rwa [beyond] at head
            obtain ⟨n, rfl⟩ := Nat.exists_eq_add_of_lt longer
            rw [TokenRule.firstMatch?_eq_none, ← split, beyond, Nat.add_assoc,
              List.take_length_add_append, List.take_succ_cons, List.cons_append]
            exact TokenRule.not_matches_beyond letter other (by simp)
      rw [← split, List.cons_append, findingAt, irregular?_accessor letter, ← List.cons_append, split,
        longest]
      rfl

end OpenCLTree

import OpenCLTree.Proofs.Lexical.Pattern
import OpenCLTree.Lexical.Lexeme
import Mathlib.Data.List.TakeWhile

namespace OpenCLTree

open Pattern

section Treatments

variable {text : List Char} {found : Finding × Nat}

theorem spacedHash?_eq_some (hash : spacedHash? text = some found) : ∃ rest, text = '#' :: rest ∧
    found = (.token (.punct .hash), 1 + (rest.takeWhile isBlank).length) := by
  unfold spacedHash? at hash
  split at hash
  · dsimp only at hash
    split at hash <;> cases hash
    exact ⟨_, rfl, rfl⟩
  · cases hash

theorem cutWideChar?_eq_some (wide : cutWideChar? text = some found) :
    ∃ after, text = 'L' :: '\'' :: '\\' :: after ∧ (∀ c ∈ after.head?, c = '\n') ∧
      found = (.token .identifier, 2) := by
  unfold cutWideChar? at wide
  split at wide
  · cases wide
    exact ⟨[], rfl, by simp, rfl⟩
  · cases wide
    exact ⟨_, rfl, by simp, rfl⟩
  · cases wide

theorem unscaledHexFloat?_eq_some (unscaled : unscaledHexFloat? text = some found) :
    ∃ x body, text = '0' :: x :: body ∧ found.1 = .malformed .unrecognizedCharacter none ∧
      0 < found.2 := by
  unfold unscaledHexFloat? at unscaled
  split at unscaled
  · split at unscaled
    · dsimp only at unscaled
      split at unscaled <;> cases unscaled
      exact ⟨_, _, rfl, rfl, by omega⟩
    · cases unscaled
  · cases unscaled

/-- The special treatments find a hash mark with its blanks, a name of two characters, or what is
no number. -/
theorem irregular?_cases (irregular : irregular? text = some found) :
    (∃ rest, text = '#' :: rest ∧
      found = (.token (.punct .hash), 1 + (rest.takeWhile isBlank).length)) ∨
    (∃ after, text = 'L' :: '\'' :: '\\' :: after ∧ found = (.token .identifier, 2)) ∨
    found.1 = .malformed .unrecognizedCharacter none ∧ 0 < found.2 := by
  rcases Option.or_eq_some_iff.mp irregular with hash | ⟨_, others⟩
  · exact .inl (spacedHash?_eq_some hash)
  rcases Option.or_eq_some_iff.mp others with wide | ⟨_, unscaled⟩
  · obtain ⟨after, same, _, name⟩ := cutWideChar?_eq_some wide
    exact .inr (.inl ⟨after, same, name⟩)
  · obtain ⟨_, _, _, broken⟩ := unscaledHexFloat?_eq_some unscaled
    exact .inr (.inr broken)

/-- A special treatment reads what stands at a text, or the longest match is judged. -/
theorem findingAt_eq (text : List Char) : irregular? text = some (findingAt text) ∨
    (∃ recognized count, TokenRule.longest? text = some (recognized, count) ∧
      findingAt text = judge recognized count text) ∨
    findingAt text = (.malformed .unrecognizedCharacter none, 1) := by
  unfold findingAt
  cases irregular? text with
  | some found => exact .inl rfl
  | none =>
    cases TokenRule.longest? text with
    | some match_ => exact .inr (.inl ⟨match_.1, match_.2, rfl, rfl⟩)
    | none => exact .inr (.inr rfl)

end Treatments

/-- The texts whose first lexeme is not the longest that a rule matches. -/
inductive IsIrregular : List Char → Prop
  /-- A hash mark, blanks and then no word. -/
  | spacedHash {blanks after : List Char} : blanks ≠ [] → (∀ c ∈ blanks, isBlank c = true) →
      (∀ c ∈ after.head?, isBlank c = false ∧ isWordStart c = false) →
      IsIrregular ('#' :: (blanks ++ after))
  /-- A wide character literal that is cut off right after a backslash. -/
  | cutWideChar {after : List Char} : (∀ c ∈ after.head?, c = '\n') →
      IsIrregular ('L' :: '\'' :: '\\' :: after)
  /-- A hexadecimal fraction without a binary exponent. -/
  | unscaledHexFloat {x : Char} {whole fraction after : List Char} : x = 'x' ∨ x = 'X' →
      (∀ c ∈ whole, isHexDigit c = true) → (∀ c ∈ fraction, isHexDigit c = true) →
      (whole ≠ [] ∨ fraction ≠ []) → (∀ c ∈ after.head?, isHexDigit c = false) →
      (∀ front, front <+: after → ¬ (TokenRule.exponent ['p', 'P']).Matches front) →
      IsIrregular ('0' :: x :: (whole ++ '.' :: (fraction ++ after)))

variable {text rest front back : List Char} {holds : Char → Bool}

/-- A run of characters ends where the first other one stands. -/
theorem takeWhile_front (all : ∀ c ∈ front, holds c = true)
    (ends : ∀ c ∈ back.head?, holds c = false) :
    (front ++ back).takeWhile holds = front ∧ (front ++ back).dropWhile holds = back := by
  rw [List.takeWhile_append_of_pos all, List.dropWhile_append_of_pos all]
  cases back with
  | nil => simp
  | cons c rest =>
    have stops : ¬ holds c = true := by simp [ends c rfl]
    rw [List.takeWhile_cons_of_neg stops, List.dropWhile_cons_of_neg stops]
    simp

/-- A part at the head of a text that is free of a character stands in front of it. -/
theorem prefix_of_append_cons {stop : Char} (before : rest <+: front ++ stop :: back)
    (without : stop ∉ rest) : rest <+: front := by
  obtain ⟨others, split⟩ := before
  obtain ⟨more, rfl, _⟩ | ⟨more, rfl, atOthers⟩ := List.append_eq_append_iff.mp split
  · exact List.prefix_append rest more
  · cases more with
    | nil => simp
    | cons c more =>
      obtain ⟨rfl, _⟩ := List.cons.inj atOthers
      simp at without

theorem spacedHash?_isSome : (spacedHash? ('#' :: rest)).isSome = true ↔
    rest.takeWhile isBlank ≠ [] ∧ ∀ c ∈ (rest.dropWhile isBlank).head?, isWordStart c = false := by
  rw [spacedHash?]
  cases (rest.dropWhile isBlank).head? <;> cases rest.takeWhile isBlank <;> simp

theorem digits_head (c : Char) (rest : List Char) : c.isDigit = true ↔
    ∃ front, front <+: c :: rest ∧ TokenRule.digits.Matches front := by
  constructor
  · intro digit
    refine ⟨[c], by simp, ?_⟩
    exact matches_seq.mpr ⟨[c], [], rfl, .one digit, .none⟩
  · rintro ⟨front, leads, matched⟩
    obtain ⟨_, _, rfl, first, _⟩ := matches_seq.mp matched
    obtain ⟨d, digit, rfl⟩ := matches_one.mp first
    obtain ⟨rfl, _⟩ := List.cons_prefix_cons.mp leads
    exact digit

/-- A mark, perhaps a sign and a digit begin an exponent. -/
theorem exponent_of_digit {mark : Char} (sign : List Char) {after : List Char}
    (marked : mark = 'p' ∨ mark = 'P')
    (signed : (optional (oneOf ['+', '-'])).Matches sign)
    (digit : after.head?.any Char.isDigit = true) :
    ∃ front, front <+: mark :: (sign ++ after) ∧
      (TokenRule.exponent ['p', 'P']).Matches front := by
  cases after with
  | nil => cases digit
  | cons c tail =>
    obtain ⟨front, leads, matched⟩ := (digits_head c tail).mp digit
    have letter : (oneOf ['p', 'P']).Matches [mark] := .one (by simpa using marked)
    refine ⟨[mark] ++ (sign ++ front), ?_, .seq letter (.seq signed matched)⟩
    exact (List.prefix_append_right_inj [mark]).mpr ((List.prefix_append_right_inj sign).mpr leads)

theorem exponent_of_startsBinaryExponent (starts : startsBinaryExponent text = true) :
    ∃ front, front <+: text ∧ (TokenRule.exponent ['p', 'P']).Matches front := by
  cases text with
  | nil => cases starts
  | cons mark rest =>
    simp only [startsBinaryExponent, Bool.and_eq_true, Bool.or_eq_true, beq_iff_eq] at starts
    obtain ⟨marked, digit⟩ := starts
    split at digit
    · exact exponent_of_digit ['+'] marked (.right (.one rfl)) digit
    · exact exponent_of_digit ['-'] marked (.right (.one rfl)) digit
    · exact exponent_of_digit [] marked (.left .empty) digit

theorem startsBinaryExponent_of_exponent
    (matched : (TokenRule.exponent ['p', 'P']).Matches front) (leads : front <+: text) :
    startsBinaryExponent text = true := by
  obtain ⟨_, _, rfl, first, others⟩ := matches_seq.mp matched
  obtain ⟨mark, marked, rfl⟩ := matches_one.mp first
  obtain ⟨sign, _, rfl, signed, digits⟩ := matches_seq.mp others
  obtain ⟨_, tail, rfl, one, _⟩ := matches_seq.mp digits
  obtain ⟨c, digit, rfl⟩ := matches_one.mp one
  obtain ⟨after, rfl⟩ := leads
  have letter : (mark == 'p' || mark == 'P') = true := by simpa using marked
  rcases matches_either.mp signed with unsigned | signed
  · rw [matches_empty.mp unsigned]
    change startsBinaryExponent (mark :: c :: (tail ++ after)) = true
    have noSign (sign : Char) (other : sign.isDigit = false) : c ≠ sign := by
      rintro rfl
      cases other.symm.trans digit
    simp [startsBinaryExponent, letter, digit, noSign '+' rfl, noSign '-' rfl]
  · obtain ⟨sign, isSign, rfl⟩ := matches_one.mp signed
    change startsBinaryExponent (mark :: sign :: c :: (tail ++ after)) = true
    have isSign : sign = '+' ∨ sign = '-' := by simpa using isSign
    rcases isSign with rfl | rfl <;> simp [startsBinaryExponent, letter, digit]

theorem unscaledHexFloat?_isSome {x : Char} {body : List Char} :
    (unscaledHexFloat? ('0' :: x :: body)).isSome = true ↔
      (x = 'x' ∨ x = 'X') ∧ ∃ tail, body.dropWhile isHexDigit = '.' :: tail ∧
        (body.takeWhile isHexDigit ≠ [] ∨ tail.takeWhile isHexDigit ≠ []) ∧
        startsBinaryExponent (tail.dropWhile isHexDigit) = false := by
  rw [unscaledHexFloat?]
  dsimp only
  split
  · rename_i tail here
    rw [here]
    simp only [Option.isSome_ite, List.cons.injEq, true_and, exists_eq_left', Bool.and_eq_true,
      Bool.or_eq_true, beq_iff_eq, Bool.not_eq_true', Bool.and_eq_false_iff,
      List.isEmpty_eq_false_iff, ne_eq, and_assoc]
  · rename_i none
    refine iff_of_false (by simp) ?_
    rintro ⟨_, tail, point, _⟩
    exact none tail point

/-- The texts that are not read by the longest rule are the irregular ones. -/
theorem irregular?_isSome : (irregular? text).isSome = true ↔ IsIrregular text := by
  rw [irregular?, Option.isSome_or, Option.isSome_or, Bool.or_eq_true, Bool.or_eq_true]
  constructor
  · rintro (hash | wide | unscaled)
    · obtain ⟨_, found⟩ := Option.isSome_iff_exists.mp hash
      obtain ⟨rest, rfl, _⟩ := spacedHash?_eq_some found
      obtain ⟨some, noWord⟩ := spacedHash?_isSome.mp hash
      rw [← List.takeWhile_append_dropWhile (p := isBlank) (l := rest)]
      refine .spacedHash some (fun c => List.mem_takeWhile_imp) fun c here => ⟨?_, noWord c here⟩
      have stops := List.head?_dropWhile_not isBlank rest
      rwa [here] at stops
    · obtain ⟨_, found⟩ := Option.isSome_iff_exists.mp wide
      obtain ⟨after, rfl, ends, _⟩ := cutWideChar?_eq_some found
      exact .cutWideChar ends
    · obtain ⟨_, found⟩ := Option.isSome_iff_exists.mp unscaled
      obtain ⟨x, body, rfl, _⟩ := unscaledHexFloat?_eq_some found
      obtain ⟨mark, tail, point, digits, unscaled⟩ := unscaledHexFloat?_isSome.mp unscaled
      rw [← List.takeWhile_append_dropWhile (p := isHexDigit) (l := body), point]
      rw [← List.takeWhile_append_dropWhile (p := isHexDigit) (l := tail)]
      refine .unscaledHexFloat mark (fun c => List.mem_takeWhile_imp)
        (fun c => List.mem_takeWhile_imp) digits (fun c here => ?_) fun front leads matched => ?_
      · have stops := List.head?_dropWhile_not isHexDigit tail
        rwa [here] at stops
      · cases unscaled.symm.trans (startsBinaryExponent_of_exponent matched leads)
  · rintro (⟨some, blank, ends⟩ | ends | ⟨mark, whole, fraction, digits, ends, unscaled⟩)
    · obtain ⟨front, back⟩ := takeWhile_front blank fun c here => (ends c here).1
      refine .inl (spacedHash?_isSome.mpr ⟨by rwa [front], fun c here => ?_⟩)
      rw [back] at here
      exact (ends c here).2
    · rename_i after
      refine .inr (.inl ?_)
      cases after with
      | nil => rfl
      | cons c rest =>
        rw [ends c rfl]
        rfl
    · rename_i x _ fraction' after
      have point : ∀ c ∈ ('.' :: (fraction' ++ after)).head?, isHexDigit c = false := by
        simp [isHexDigit]
      obtain ⟨front, back⟩ := takeWhile_front whole point
      obtain ⟨front', back'⟩ := takeWhile_front fraction ends
      refine .inr (.inr (unscaledHexFloat?_isSome.mpr ⟨mark, _, back, ?_, ?_⟩))
      · rwa [front, front']
      · rw [back', Bool.eq_false_iff]
        intro starts
        obtain ⟨front, leads, matched⟩ := exponent_of_startsBinaryExponent starts
        exact unscaled front leads matched

end OpenCLTree

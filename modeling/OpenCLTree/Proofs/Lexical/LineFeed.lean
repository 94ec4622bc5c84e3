import OpenCLTree.Proofs.Lexical.Stream

namespace OpenCLTree

open Pattern

variable {w v : List Char} {c : Char}

section Runs

variable {p : Char → Bool}

theorem takeWhile_feed (stops : p '\n' = false) :
    (w ++ '\n' :: v).takeWhile p = w.takeWhile p := by
  induction w with
  | nil => simp [stops]
  | cons c w ih => simp [List.takeWhile_cons, ih]

theorem dropWhile_feed (stops : p '\n' = false) :
    (w ++ '\n' :: v).dropWhile p = w.dropWhile p ++ '\n' :: v := by
  induction w with
  | nil => simp [stops]
  | cons c w ih =>
    rw [List.cons_append, List.dropWhile_cons, List.dropWhile_cons, ih]
    split <;> rfl

theorem head?_feed (stops : p '\n' = false) :
    (w ++ '\n' :: v).head?.any p = w.head?.any p := by
  cases w <;> simp [stops]

end Runs

theorem spacedHash?_feed : spacedHash? (w ++ '\n' :: v) = spacedHash? w := by
  cases w with
  | nil => rfl
  | cons c rest =>
    by_cases hash : c = '#'
    · subst hash
      simp only [List.cons_append, spacedHash?, takeWhile_feed (show isBlank '\n' = false by rfl),
        dropWhile_feed (show isBlank '\n' = false by rfl),
        head?_feed (show isWordStart '\n' = false by rfl)]
    · simp [spacedHash?, hash]

theorem cutWideChar?_none (other : ¬ ['L', '\'', '\\'] <+: w) : cutWideChar? w = none := by
  unfold cutWideChar?
  split
  · exact absurd (List.prefix_refl _) other
  · exact absurd (List.prefix_append ['L', '\'', '\\'] _) other
  · rfl

theorem cutWideChar?_feed : cutWideChar? (w ++ '\n' :: v) = cutWideChar? w := by
  by_cases wide : ['L', '\'', '\\'] <+: w
  · obtain ⟨rest, rfl⟩ := wide
    cases rest with
    | nil => rfl
    | cons c rest =>
      by_cases feed : c = '\n'
      · subst feed
        rfl
      · simp [cutWideChar?, feed]
  · rw [cutWideChar?_none wide, cutWideChar?_none]
    exact fun before => wide (prefix_of_append_cons before (by decide))

theorem startsBinaryExponent_feed :
    startsBinaryExponent (w ++ '\n' :: v) = startsBinaryExponent w := by
  match w with
  | [] => rfl
  | [mark] => simp [startsBinaryExponent]
  | mark :: sign :: rest =>
    by_cases plus : sign = '+'
    · subst plus
      simp only [List.cons_append, startsBinaryExponent,
        head?_feed (show Char.isDigit '\n' = false by rfl)]
    by_cases minus : sign = '-'
    · subst minus
      simp only [List.cons_append, startsBinaryExponent,
        head?_feed (show Char.isDigit '\n' = false by rfl)]
    · simp [startsBinaryExponent, plus, minus]

/-- What is no broken number in front of the end is none in front of a line feed. -/
theorem unscaledHexFloat?_feed (regular : unscaledHexFloat? w = none) :
    unscaledHexFloat? (w ++ '\n' :: v) = none := by
  cases w with
  | nil => rfl
  | cons zero rest =>
    by_cases isZero : zero = '0'
    · subst isZero
      cases rest with
      | nil =>
        simp only [List.cons_append, List.nil_append, unscaledHexFloat?]
        split <;> rfl
      | cons x body =>
        simp only [List.cons_append, unscaledHexFloat?,
          takeWhile_feed (show isHexDigit '\n' = false by rfl),
          dropWhile_feed (show isHexDigit '\n' = false by rfl)] at regular ⊢
        generalize body.dropWhile isHexDigit = tail at regular ⊢
        cases tail with
        | nil => rfl
        | cons point tail =>
          by_cases isPoint : point = '.'
          · subst isPoint
            simp only [List.cons_append, takeWhile_feed (show isHexDigit '\n' = false by rfl),
              dropWhile_feed (show isHexDigit '\n' = false by rfl), startsBinaryExponent_feed]
              at regular ⊢
            split at regular
            · cases regular
            · rename_i scaled
              rw [if_neg scaled]
          · simp [isPoint]
    · simp [unscaledHexFloat?, isZero]

theorem error?_unscaledHexFloat? {found : Finding × Nat} (unscaled : unscaledHexFloat? w = some found) :
    found.1.error? = some .unrecognizedCharacter := by
  obtain ⟨_, _, _, broken, _⟩ := unscaledHexFloat?_eq_some unscaled
  rw [broken]
  rfl

/-- What is read at a text by the special treatments is read so in front of a line feed. -/
theorem irregular?_feed (sound : ∀ found, irregular? w = some found → found.1.error? = none) :
    irregular? (w ++ '\n' :: v) = irregular? w := by
  unfold irregular? at sound ⊢
  rw [spacedHash?_feed, cutWideChar?_feed]
  cases hash : spacedHash? w with
  | some found => rfl
  | none =>
    cases wide : cutWideChar? w with
    | some found => rfl
    | none =>
      cases unscaled : unscaledHexFloat? w with
      | none => exact unscaledHexFloat?_feed unscaled
      | some found =>
        have clean := sound found (by rw [hash, wide, unscaled]; rfl)
        rw [error?_unscaledHexFloat? unscaled] at clean
        cases clean

namespace TokenRule

variable {recognized : Recognized} {n : Nat}

theorem filter_feed :
    all.filter (!·.pattern.avoids '\n') = [⟨.blank, blanks⟩, ⟨.blank, continuation⟩] := by
  rfl

/-- Only blanks reach across a line feed, and a backslash that joins the lines. -/
theorem matches_across_feed {rule : TokenRule} (member : rule ∈ all)
    (found : rule.pattern.Matches (c :: w ++ '\n' :: v)) :
    blanks.starts c = true ∨ c :: w = ['\\'] ∨ c :: w = ['\\', '\r'] := by
  by_cases free : rule.pattern.avoids '\n' = true
  · exact absurd (by simp) (found.notMem free)
  have across : rule ∈ all.filter (!·.pattern.avoids '\n') := by simp [member, free]
  rw [filter_feed, List.mem_cons, List.mem_singleton] at across
  rcases across with rfl | rfl
  · exact .inl found.starts
  · right
    obtain ⟨_, _, split, backslash, joins⟩ := matches_seq.mp found
    obtain ⟨_, _, rfl, carriage, feed⟩ := matches_seq.mp joins
    rw [matches_char] at backslash feed
    subst backslash feed
    rcases matches_either.mp carriage with none | alone
    · rw [matches_empty.mp none] at split
      cases w with
      | nil =>
        obtain ⟨rfl, _⟩ := List.cons.inj split
        exact .inl rfl
      | cons d w => simp at split
    · rw [matches_char.mp alone] at split
      cases w with
      | nil => simp at split
      | cons d w =>
        cases w with
        | nil =>
          simp only [List.cons_append, List.nil_append, List.cons.injEq] at split
          exact .inr (by rw [split.1, split.2.1])
        | cons e w => simp at split

theorem longest?_backslash : longest? ['\\'] = none := by
  decide +kernel

theorem longest?_backslashReturn : longest? ['\\', '\r'] = none := by
  decide +kernel

/-- The longest match is the same in front of a line feed as in front of the end. -/
theorem longest?_feed (notBlank : blanks.starts c = false)
    (longest : longest? (c :: w) = some (recognized, n)) :
    longest? (c :: w ++ '\n' :: v) = some (recognized, n) := by
  have match_ := longest?_eq_some.mp longest
  have within := match_.within
  refine longest?_eq_some.mpr ⟨match_.positive, ?_, ?_, ?_⟩
  · rw [List.length_append]
    omega
  · rw [List.take_append_of_le_length within]
    exact match_.first
  · intro m longer _
    by_cases inside : m ≤ (c :: w).length
    · rw [List.take_append_of_le_length inside]
      exact match_.noLonger m longer inside
    · obtain ⟨k, rfl⟩ := Nat.exists_eq_add_of_lt (Nat.lt_of_not_le inside)
      rw [firstMatch?_eq_none, Nat.add_assoc, List.take_length_add_append, List.take_succ_cons]
      intro rule member found
      rcases matches_across_feed member found with blank | alone | joined
      · cases notBlank.symm.trans blank
      · rw [alone, longest?_backslash] at longest
        cases longest
      · rw [joined, longest?_backslashReturn] at longest
        cases longest

end TokenRule

theorem commentExtent?_append {n : Nat} (closed : commentExtent? w = some n) :
    commentExtent? (w ++ v) = some n := by
  fun_induction commentExtent? w generalizing n with
  | case1 rest =>
    cases closed
    rfl
  | case2 c rest open_ ih =>
    obtain ⟨m, within, rfl⟩ := Option.map_eq_some_iff.mp closed
    cases rest with
    | nil => cases within
    | cons d rest =>
      have later := ih within
      rw [List.cons_append]
      unfold commentExtent?
      split
      · rename_i same
        obtain ⟨star, same⟩ := List.cons.inj same
        obtain ⟨rfl, _⟩ := List.cons.inj same
        exact (open_ rest star rfl).elim
      · rename_i same
        obtain ⟨rfl, rfl⟩ := List.cons.inj same
        rw [later]
        rfl
      · rename_i same
        cases same
  | case3 => cases closed

theorem commentExtent?_le {n : Nat} (closed : commentExtent? w = some n) : n ≤ w.length := by
  fun_induction commentExtent? w generalizing n with
  | case1 rest =>
    cases closed
    simp
  | case2 c rest open_ ih =>
    obtain ⟨m, within, rfl⟩ := Option.map_eq_some_iff.mp closed
    exact Nat.succ_le_succ (ih within)
  | case3 => cases closed

theorem irregular?_le {found : Finding × Nat} (irregular : irregular? w = some found)
    (sound : found.1.error? = none) : found.2 ≤ w.length := by
  rcases irregular?_cases irregular with ⟨rest, rfl, rfl⟩ | ⟨_, rfl, rfl⟩ | ⟨broken, _⟩
  · have shorter := (List.takeWhile_prefix (l := rest) isBlank).length_le
    simp only [List.length_cons]
    omega
  · simp
  · rw [broken] at sound
    cases sound

theorem judge_le {recognized : Recognized} {n : Nat} (within : n ≤ w.length)
    (sound : (judge recognized n w).1.error? = none) : (judge recognized n w).2 ≤ w.length := by
  cases recognized with
  | blank | lineComment | token | openQuotation => exact within
  | commentOpening =>
    simp only [judge] at sound ⊢
    split at sound
    · rename_i extent closed
      have inside := commentExtent?_le closed
      rw [List.length_drop] at inside
      dsimp only
      omega
    · cases sound
  | quotation =>
    simp only [judge]
    split <;> exact within

/-- A sound piece does not reach over the end of the text. -/
theorem findingAt_le (sound : (findingAt w).1.error? = none) : (findingAt w).2 ≤ w.length := by
  rcases findingAt_eq w with irregular | ⟨recognized, n, longest, same⟩ | same
  · exact irregular?_le irregular sound
  · rw [same] at sound ⊢
    exact judge_le (TokenRule.longest?_eq_some.mp longest).within sound
  · rw [same] at sound
    cases sound

/-- What stands at a sound text stands there in front of a line feed too. -/
theorem findingAt_feed (notBlank : TokenRule.blanks.starts c = false)
    (sound : (findingAt (c :: w)).1.error? = none) :
    findingAt (c :: w ++ '\n' :: v) = findingAt (c :: w) := by
  have same : irregular? (c :: w ++ '\n' :: v) = irregular? (c :: w) := by
    refine irregular?_feed fun found irregular => ?_
    unfold findingAt at sound
    rwa [irregular] at sound
  unfold findingAt at sound ⊢
  rw [same]
  cases irregular : irregular? (c :: w) with
  | some found => rfl
  | none =>
    rw [irregular] at sound
    cases longest : TokenRule.longest? (c :: w) with
    | none =>
      rw [longest] at sound
      cases sound
    | some match_ =>
      obtain ⟨recognized, n⟩ := match_
      have within := (TokenRule.longest?_eq_some.mp longest).within
      rw [longest] at sound
      rw [TokenRule.longest?_feed notBlank longest]
      cases recognized with
      | blank | lineComment | token => rfl
      | commentOpening =>
        simp only [judge] at sound ⊢
        rw [List.drop_append_of_le_length within]
        split at sound
        · rename_i extent closed
          rw [commentExtent?_append closed]
        · cases sound
      | quotation =>
        simp only [judge]
        rw [List.take_append_of_le_length within]
      | openQuotation => rfl

end OpenCLTree
